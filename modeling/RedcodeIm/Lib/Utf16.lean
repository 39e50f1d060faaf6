import Mathlib.Data.List.DropRight

/-!
# UTF-16

Strings as sequences of UTF-16 code units, in which a surrogate may stand alone.

* `ofString` — the code units of a string of characters.
* `wellFormed` — every surrogate is one of a pair.
* `replaceUnpaired` — a mark in place of every other surrogate.
* `trim`, `blank` — white space at the ends, for any notion of white space; none of it is a
  surrogate in what keeps a string well formed.
-/

namespace Utf16

open List

abbrev Units : Type := List UInt16

/-- The first one of a pair. -/
def isHigh (u : UInt16) : Bool := 0xD800 ≤ u && u ≤ 0xDBFF

/-- The second one of a pair. -/
def isLow (u : UInt16) : Bool := 0xDC00 ≤ u && u ≤ 0xDFFF

def isSurrogate (u : UInt16) : Bool := isHigh u || isLow u

/-- The code units of a character. -/
def ofChar (c : Char) : Units :=
  let n := c.toNat
  if n < 0x10000 then [UInt16.ofNat n]
  else
    [UInt16.ofNat (0xD800 + (n - 0x10000) / 0x400),
      UInt16.ofNat (0xDC00 + (n - 0x10000) % 0x400)]

def ofString (s : String) : Units := s.toList.flatMap ofChar

/-! ## Surrogates -/

/-- Every surrogate is one of a pair. -/
def wellFormed : Units → Bool
  | [] => true
  | [u] => !isSurrogate u
  | u :: v :: rest =>
    if isHigh u then isLow v && wellFormed rest else !isLow u && wellFormed (v :: rest)

/-- A mark in place of every surrogate that is not one of a pair. -/
def replaceUnpaired (mark : UInt16) : Units → Units
  | [] => []
  | [u] => if isSurrogate u then [mark] else [u]
  | u :: v :: rest =>
    if isHigh u then
      if isLow v then u :: v :: replaceUnpaired mark rest
      else mark :: replaceUnpaired mark (v :: rest)
    else if isLow u then mark :: replaceUnpaired mark (v :: rest)
    else u :: replaceUnpaired mark (v :: rest)

theorem isSurrogate_eq_false_iff {u : UInt16} :
    isSurrogate u = false ↔ isHigh u = false ∧ isLow u = false := Bool.or_eq_false_iff

/-- What is no surrogate, in front, changes nothing. -/
theorem wellFormed_cons {u : UInt16} (hu : isSurrogate u = false) (s : Units) :
    wellFormed (u :: s) = wellFormed s := by
  obtain ⟨hhigh, hlow⟩ := isSurrogate_eq_false_iff.mp hu
  cases s with
  | nil => simp [wellFormed, hu]
  | cons v rest => simp [wellFormed, hhigh, hlow]

theorem wellFormed_append {t : Units} (ht : ∀ u ∈ t, isSurrogate u = false) :
    ∀ s : Units, wellFormed (s ++ t) = wellFormed s
  | [] => by
    induction t with
    | nil => rfl
    | cons u t ih =>
      rw [nil_append, wellFormed_cons (ht u mem_cons_self)]
      exact ih fun v hv => ht v (mem_cons_of_mem u hv)
  | [u] => by
    cases t with
    | nil => rfl
    | cons v t =>
      have hv := ht v mem_cons_self
      have hrest := wellFormed_append (t := v :: t) ht []
      rw [nil_append] at hrest
      simp only [cons_append, nil_append, wellFormed, isSurrogate, Bool.not_or]
      rw [hrest, (isSurrogate_eq_false_iff.mp hv).2]
      cases isHigh u <;> simp [wellFormed]
  | u :: v :: rest => by
    have hrest := wellFormed_append ht rest
    have hcons := wellFormed_append ht (v :: rest)
    rw [cons_append] at hcons
    simp only [cons_append, wellFormed]
    rw [hrest, hcons]

/-- **Nothing is replaced** just where every surrogate is one of a pair. -/
theorem replaceUnpaired_eq_self_iff {mark : UInt16} (hmark : isSurrogate mark = false) :
    ∀ s : Units, replaceUnpaired mark s = s ↔ wellFormed s = true
  | [] => by simp [replaceUnpaired, wellFormed]
  | [u] => by
    rw [replaceUnpaired, wellFormed]
    cases hu : isSurrogate u with
    | true =>
      have hne : mark ≠ u := by
        rintro rfl
        rw [hmark] at hu
        cases hu
      simp [hne]
    | false => simp
  | u :: v :: rest => by
    have hrest := replaceUnpaired_eq_self_iff hmark rest
    have hcons := replaceUnpaired_eq_self_iff hmark (v :: rest)
    have hne : isSurrogate u = true → mark ≠ u := by
      rintro hu rfl
      rw [hmark] at hu
      cases hu
    rw [replaceUnpaired, wellFormed]
    cases hhigh : isHigh u with
    | true =>
      have hsurrogate : mark ≠ u := hne (by simp [isSurrogate, hhigh])
      cases hlow : isLow v with
      | true => simpa using hrest
      | false => simp [hsurrogate]
    | false =>
      cases hlow : isLow u with
      | true =>
        have hsurrogate : mark ≠ u := hne (by simp [isSurrogate, hlow])
        simp [hsurrogate]
      | false => simpa using hcons

/-! ## White space -/

variable {space : UInt16 → Bool} {s : Units}

/-- A string without the white space at its ends. -/
def trim (space : UInt16 → Bool) (s : Units) : Units := (s.dropWhile space).rdropWhile space

/-- There is nothing but white space. -/
def blank (space : UInt16 → Bool) (s : Units) : Bool := s.all space

theorem trim_eq_nil_iff : trim space s = [] ↔ blank space s = true := by
  rw [trim, rdropWhile_eq_nil_iff, blank, all_eq_true]
  constructor
  · intro h u hu
    have hs : s.takeWhile space ++ s.dropWhile space = s := takeWhile_append_dropWhile
    rw [← hs, mem_append] at hu
    exact hu.elim mem_takeWhile_imp (h u)
  · intro h u hu
    exact h u ((dropWhile_suffix space).subset hu)

theorem wellFormed_dropWhile (hspace : ∀ u, space u = true → isSurrogate u = false) :
    wellFormed s = true → wellFormed (s.dropWhile space) = true := by
  induction s with
  | nil => exact id
  | cons u s ih =>
    intro h
    rw [dropWhile_cons]
    split
    case isTrue hu => exact ih ((wellFormed_cons (hspace u hu) s).symm.trans h)
    case isFalse => exact h

/-- White space can be taken off without breaking a pair. -/
theorem wellFormed_trim (hspace : ∀ u, space u = true → isSurrogate u = false)
    (h : wellFormed s = true) : wellFormed (trim space s) = true := by
  have hdrop := wellFormed_dropWhile hspace h
  have hsplit : trim space s ++ (s.dropWhile space).rtakeWhile space = s.dropWhile space :=
    rdropWhile_append_rtakeWhile
  rw [← hsplit, wellFormed_append] at hdrop
  · exact hdrop
  · exact fun u hu => hspace u (mem_rtakeWhile_imp hu)

end Utf16
