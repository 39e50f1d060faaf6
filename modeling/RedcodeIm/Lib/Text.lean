import Mathlib.Data.List.DropRight

/-!
# Text

The functions on strings that programs check and tidy their input with, as the strings of
Rust have them: on characters, with the white space of Unicode.

* `isWhitespace`, `trim` — white space, and a string without it at its ends.
* `toAsciiLowercase` — the letters of ASCII in lower case, everything else as it is.
-/

namespace Text

/-- The characters with the property `White_Space`. -/
def isWhitespace (c : Char) : Bool :=
  let n := c.toNat
  (0x09 ≤ n && n ≤ 0x0D) || n == 0x20 || n == 0x85 || n == 0xA0 || n == 0x1680 ||
    (0x2000 ≤ n && n ≤ 0x200A) || n == 0x2028 || n == 0x2029 || n == 0x202F || n == 0x205F ||
    n == 0x3000

/-- A list without the white space at its ends. -/
def trimChars (cs : List Char) : List Char :=
  (((cs.dropWhile isWhitespace).reverse).dropWhile isWhitespace).reverse

def trim (s : String) : String := String.ofList (trimChars s.toList)

def toAsciiLowercase (s : String) : String := String.ofList (s.toList.map Char.toLower)

/-! ## What is left of a string -/

theorem toList_trim (s : String) : (trim s).toList = trimChars s.toList :=
  String.toList_ofList

theorem trimChars_eq (cs : List Char) :
    trimChars cs = (cs.dropWhile isWhitespace).rdropWhile isWhitespace := rfl

/-- What starts with no white space keeps its start. -/
theorem trimChars_prefix {c : Char} (hc : isWhitespace c = false) (cs : List Char) :
    trimChars (c :: cs) <+: c :: cs := by
  rw [trimChars_eq, List.dropWhile_cons_of_neg (by simp [hc])]
  exact List.rdropWhile_prefix _ _

/-- A string that has been trimmed is as it is. -/
theorem trimChars_trimChars (cs : List Char) : trimChars (trimChars cs) = trimChars cs := by
  have hstart : (trimChars cs).dropWhile isWhitespace = trimChars cs := by
    rw [List.dropWhile_eq_self_iff]
    intro hl
    have hp : trimChars cs <+: cs.dropWhile isWhitespace := List.rdropWhile_prefix _ _
    rw [hp.getElem hl]
    exact List.dropWhile_get_zero_not _ cs (hl.trans_le hp.length_le)
  rw [trimChars_eq (trimChars cs), hstart, trimChars_eq, List.rdropWhile_idempotent]

@[simp] theorem trim_trim (s : String) : trim (trim s) = trim s := by
  rw [trim, toList_trim, trimChars_trimChars]
  rfl

end Text
