import Mathlib.Algebra.Group.Nat.Defs
import RedcodeIm.Database.Models

/-!
# UUIDs as texts

The texts that samples use for UUIDs: thirty-two hexadecimal digits, grouped by hyphens.

* `sampleParseUuid`, `sampleUuidText` — reading and writing.
-/

namespace RedcodeIm

/-- A digit of a UUID. -/
def hexDigitValue (c : Char) : Option ℕ :=
  if '0' ≤ c ∧ c ≤ '9' then some (c.toNat - '0'.toNat)
  else if 'a' ≤ c ∧ c ≤ 'f' then some (c.toNat - 'a'.toNat + 10)
  else if 'A' ≤ c ∧ c ≤ 'F' then some (c.toNat - 'A'.toNat + 10)
  else none

/-- Thirty-two digits, with or without hyphens. -/
def sampleParseUuid (s : String) : Except String Uuid :=
  match (s.toList.filter (· ≠ '-')).mapM hexDigitValue with
  | some digits =>
    if digits.length = 32 then .ok (digits.foldl (fun n d => n * 16 + d) 0)
    else .error "invalid length"
  | none => .error "invalid character"

def sampleUuidText (u : Uuid) : String :=
  let digits := (Nat.toDigits 16 (u % 16 ^ 32)).leftpad 32 '0'
  String.ofList (digits.take 8 ++ '-' :: (digits.drop 8).take 4 ++ '-' :: (digits.drop 12).take 4 ++
    '-' :: (digits.drop 16).take 4 ++ '-' :: digits.drop 20)

example : sampleParseUuid (sampleUuidText 0xab) = .ok 0xab := by decide

end RedcodeIm
