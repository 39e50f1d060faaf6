import Mathlib.Algebra.Group.Nat.Defs
import Mathlib.Data.List.Forall2
import Mathlib.Data.List.GetD
import Mathlib.Order.PiLex
import RedcodeIm.Runtime.Gate

/-!
# The order of versions

`compare_versions` of `services/e2ee_runtime_gate.rs`.  A part of a version that is no number of
64 bits is read as minus one, so it is below every number, whether it is a text or a number that
is too large.

* `compareVersions_eq` — versions are compared as the sequences that they are read as.
* `Lawful` — what every order of versions should do.
* `ranks_below` — which parts are ranked by their values.
-/

namespace RedcodeIm.VersionOrder

open List

/-! ## Versions as sequences -/

/-- What a part is read as. -/
def partValue (part : List Char) : ℤ := (parseI64 (Text.trimChars part)).getD (-1)

/-- A version as the parts that it is read as, with zeros after the last of them. -/
def versionKey (version : String) : Lex (ℕ → ℤ) :=
  toLex fun index => (parseVersionParts version).getD index 0

/-- The first difference decides. -/
theorem compareVersions_eq (left right : String) :
    compareVersions left right = compare (versionKey left) (versionKey right) := by
  simp only [compareVersions, find?_map]
  generalize hfind : find? _ _ = found
  cases found with
  | none =>
    refine (compare_eq_iff_eq.2 (show versionKey left = versionKey right from
      funext fun index => ?_)).symm
    by_cases hindex :
        index < max (parseVersionParts left).length (parseVersionParts right).length
    · simpa [versionKey] using find?_range_eq_none.1 hfind index hindex
    · exact (getD_eq_default _ _ (by omega)).trans (getD_eq_default _ _ (by omega)).symm
  | some index =>
    obtain ⟨hne, -, hsame⟩ := find?_range_eq_some.1 hfind
    have hbefore : ∀ j < index, versionKey left j = versionKey right j := by
      simpa [versionKey] using hsame
    rcases lt_trichotomy (versionKey left index) (versionKey right index) with h | h | h
    · exact (compare_lt_iff_lt.2 h).trans (compare_lt_iff_lt.2
        (show versionKey left < versionKey right from ⟨index, hbefore, h⟩)).symm
    · exact absurd (compare_eq_iff_eq.2 h) (by simpa [versionKey] using hne)
    · exact (compare_gt_iff_gt.2 h).trans (compare_gt_iff_gt.2
        (show versionKey right < versionKey left from
          ⟨index, fun j hj => (hbefore j hj).symm, h⟩)).symm

/-- The laws of a total preorder, the zeros at the end that change nothing, and the devices that
are compliant with every later version. -/
structure Lawful : Prop where
  refl : ∀ v, compareVersions v v = .eq
  trans : ∀ u v w, compareVersions u v ≠ .gt → compareVersions v w ≠ .gt → compareVersions u w ≠ .gt
  total : ∀ v w, compareVersions v w ≠ .gt ∨ compareVersions w v ≠ .gt
  zeros : ∀ v w, compareVersions (v ++ ".0") w = compareVersions v w
  monotone : ∀ (device : DeviceCapabilityRecord) minVersions v w, compareVersions v w ≠ .gt →
    isCompliantDevice { device with clientVersion := some v } minVersions →
    isCompliantDevice { device with clientVersion := some w } minVersions

theorem versionKey_zeros (v : String) : versionKey (v ++ ".0") = versionKey v := by
  have hparts : parseVersionParts (v ++ ".0") = parseVersionParts v ++ [0] := by
    unfold parseVersionParts
    rw [String.toList_append, show ".0".toList = '.' :: ['0'] from rfl,
      splitOn_append_cons_self, map_append]
    rfl
  refine funext fun index => ?_
  simp only [versionKey, hparts]
  rcases lt_or_ge index (parseVersionParts v).length with h | h
  · exact getD_append _ _ _ _ h
  · rw [Pi.toLex_apply, Pi.toLex_apply, getD_append_right _ _ _ _ h,
      getD_eq_default _ _ h]
    cases index - (parseVersionParts v).length with
    | zero | succ => rfl

theorem lawful : Lawful := by
  have hle {v w : String} : compareVersions v w ≠ .gt ↔ versionKey v ≤ versionKey w := by
    rw [compareVersions_eq, compare_le_iff_le]
  refine ⟨fun v => ?_, fun u v w huv hvw => hle.2 ((hle.1 huv).trans (hle.1 hvw)),
    fun v w => (le_total (versionKey v) (versionKey w)).imp hle.2 hle.2, fun v w => ?_,
    fun device minVersions v w hvw h => ?_⟩
  · rw [compareVersions_eq, compare_eq_iff_eq]
  · rw [compareVersions_eq, compareVersions_eq, versionKey_zeros]
  · unfold isCompliantDevice at h ⊢
    cases hplatform : device.clientPlatform with
    | none => simp [hplatform] at h
    | some platform =>
      cases hmin : minVersions.lookup platform with
      | none => simp [hplatform, hmin] at h
      | some minVersion =>
        simp only [hplatform, hmin, decide_eq_true_eq, compareVersions_eq, ne_eq,
          compare_lt_iff_lt, not_lt] at h ⊢
        exact h.trans (hle.1 hvw)

/-! ## Parts -/

/-- A text of decimal digits. -/
def Digits (part : List Char) : Prop := part ≠ [] ∧ ∀ c ∈ part, c.isDigit

/-- The value of a text of decimal digits. -/
def digitsValue (part : List Char) : ℕ :=
  part.foldl (fun n c => 10 * n + (c.toNat - '0'.toNat)) 0

/-- Parts that do not differ. -/
def Same (p q : List Char) : Prop := p = q ∨ Digits p ∧ Digits q ∧ digitsValue p = digitsValue q

/-- The part of digits `b` is above `a`: a text, or digits of a smaller value. -/
def Below (a b : List Char) : Prop :=
  '.' ∉ a ∧ Digits b ∧ (Digits a → digitsValue a < digitsValue b)

/-- The version with these parts. -/
def version (parts : List (List Char)) : String := String.ofList (['.'].intercalate parts)

/-- A version whose first part that differs is `a` ranks below one that has `b` there. -/
def RanksBelow (a b : List Char) : Prop :=
  ∀ front front' tail tail', (∀ p ∈ front ++ front' ++ tail ++ tail', '.' ∉ p) →
    List.Forall₂ Same front front' →
    compareVersions (version (front ++ a :: tail)) (version (front' ++ b :: tail')) = .lt

/-- The value of `b` fits into 64 bits and `a` is read as no number, or as a smaller one; or the
value does not fit and `a` is read as a number below minus one. -/
def ReadsBelow (a b : List Char) : Prop :=
  if digitsValue b < 2 ^ 63 then ∀ value ∈ parseI64 (Text.trimChars a), value < digitsValue b
  else ∃ value ∈ parseI64 (Text.trimChars a), value < -1

theorem Digits.not_dot {part : List Char} (h : Digits part) : '.' ∉ part :=
  fun hdot => absurd (h.2 _ hdot) (by decide)

theorem trimChars_digits {part : List Char} (h : Digits part) : Text.trimChars part = part := by
  have hblank : ∀ c ∈ part, ¬ Text.isWhitespace c := by
    intro c hc
    have := h.2 c hc
    simp only [Char.isDigit, Text.isWhitespace, Char.toNat] at this ⊢
    simp [UInt32.le_iff_toNat_le] at this ⊢
    omega
  rw [Text.trimChars_eq, dropWhile_eq_self_iff.2 fun hl => hblank _ (getElem_mem hl),
    rdropWhile_eq_self_iff.2 fun hl => hblank _ (getLast_mem hl)]

theorem partValue_digits {part : List Char} (h : Digits part) :
    partValue part = if digitsValue part < 2 ^ 63 then (digitsValue part : ℤ) else -1 := by
  have hparse : parseI64 part =
      if digitsValue part < 2 ^ 63 then some (digitsValue part : ℤ) else none := by
    unfold parseI64
    split
    next heq =>
      split at heq
      · exact absurd (h.2 '-' (by simp)) (by decide)
      · exact absurd (h.2 '+' (by simp)) (by decide)
      · cases heq
        rw [if_neg (by simpa [h.1] using h.2)]
        refine if_congr ?_ rfl rfl
        change -2 ^ 63 ≤ (digitsValue part : ℤ) ∧ (digitsValue part : ℤ) < 2 ^ 63 ↔ _
        omega
  rw [partValue, trimChars_digits h, hparse]
  split <;> rfl

theorem partValue_same {p q : List Char} (h : Same p q) : partValue p = partValue q := by
  obtain rfl | ⟨hp, hq, hvalue⟩ := h
  · rfl
  · rw [partValue_digits hp, partValue_digits hq, hvalue]

theorem readsBelow_iff {a b : List Char} (hb : Digits b) :
    ReadsBelow a b ↔ partValue a < partValue b := by
  rw [partValue_digits hb, ReadsBelow, partValue]
  cases parseI64 (Text.trimChars a) with
  | none | some => split <;> simp <;> omega

theorem versionKey_version {parts : List (List Char)} (hne : parts ≠ [])
    (hdots : ∀ p ∈ parts, '.' ∉ p) (index : ℕ) :
    versionKey (version parts) index = (parts.map partValue).getD index 0 := by
  simp only [versionKey, version, parseVersionParts, String.toList_ofList,
    splitOn_intercalate '.' hdots hne]
  rfl

/-- What two versions whose first difference is in these parts are compared by. -/
theorem ranksBelow_iff {a b : List Char} (ha : '.' ∉ a) (hb : Digits b) :
    RanksBelow a b ↔ partValue a < partValue b := by
  refine ⟨fun h => ?_, fun h front front' tail tail' hdots hsame => ?_⟩
  · have hlt := h [] [] [] [] (by simp) .nil
    rw [compareVersions_eq, compare_lt_iff_lt] at hlt
    obtain ⟨index, -, hindex⟩ := hlt
    rw [nil_append, nil_append, versionKey_version (by simp) (by simpa using ha),
      versionKey_version (by simp) (by simpa using hb.not_dot)] at hindex
    cases index with
    | zero => exact hindex
    | succ index => simp at hindex
  · rw [compareVersions_eq, compare_lt_iff_lt]
    have hfront : front.map partValue = front'.map partValue := by
      rw [← forall₂_eq_eq_eq, forall₂_map_left_iff, forall₂_map_right_iff]
      exact hsame.imp fun _ _ => partValue_same
    refine ⟨front.length, fun j hj => ?_, ?_⟩ <;>
      rw [versionKey_version (by simp) (by grind),
        versionKey_version (by simp) (by grind [Digits.not_dot]), map_append,
        map_append, ← hfront]
    · rw [getD_append _ _ _ _ (by simpa), getD_append _ _ _ _ (by simpa)]
    · simpa [getD_append_right] using h

/-- **Versions are in a total preorder; which parts are ranked by their values.**  One part is
ranked below another, wherever they are the first to differ, exactly where it is read below it. -/
theorem ranks_below (a b : List Char) :
    (Lawful ∧ (Below a b → RanksBelow a b)) ↔ (Below a b → ReadsBelow a b) := by
  refine ⟨fun h hab => ?_, fun h => ⟨lawful, fun hab => ?_⟩⟩
  · exact (readsBelow_iff hab.2.1).2 ((ranksBelow_iff hab.1 hab.2.1).1 (h.2 hab))
  · exact (ranksBelow_iff hab.1 hab.2.1).2 ((readsBelow_iff hab.2.1).1 (h hab))

/-- The largest number of 64 bits ranks above the next. -/
theorem next_below : ¬ ∀ a b, Lawful ∧ (Below a b → RanksBelow a b) := by
  intro h
  have hlt := (h "9223372036854775807".toList "9223372036854775808".toList).2
    ⟨by decide, ⟨by decide, all_eq_true.1 (by decide)⟩, fun _ => by decide⟩ [] [] [] []
    (by simp) .nil
  exact absurd hlt (by decide +kernel)

end RedcodeIm.VersionOrder
