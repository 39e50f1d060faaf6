import RedcodeIm.Lib.Utf16

/-!
# Base64

The standard alphabet with padding, on code units.

* `sextets`, `encode` — bytes in groups of six bits, and as text.
* `decode` — the bytes of a text, where padding may be left out or must not be.
* `decode_encode` — what has been written is read.
* `encodeText`, `decodeText` — the same for strings of characters.
-/

namespace Base64

open Utf16 List

/-- The symbol of six bits. -/
def symbol (n : ℕ) : UInt16 :=
  if n < 26 then UInt16.ofNat (n + 65)
  else if n < 52 then UInt16.ofNat (n + 71)
  else if n < 62 then UInt16.ofNat (n - 4)
  else if n = 62 then 43 else 47

/-- The six bits of a symbol. -/
def sextet (u : UInt16) : Option ℕ :=
  let n := u.toNat
  if 65 ≤ n ∧ n ≤ 90 then some (n - 65)
  else if 97 ≤ n ∧ n ≤ 122 then some (n - 71)
  else if 48 ≤ n ∧ n ≤ 57 then some (n + 4)
  else if n = 43 then some 62
  else if n = 47 then some 63
  else none

/-- The sign that fills a group up. -/
def pad : UInt16 := 61

/-- Bytes in groups of six bits. -/
def sextets : List UInt8 → List ℕ
  | [] => []
  | [a] => [a.toNat / 4, a.toNat % 4 * 16]
  | [a, b] => [a.toNat / 4, a.toNat % 4 * 16 + b.toNat / 16, b.toNat % 16 * 4]
  | a :: b :: c :: rest =>
    a.toNat / 4 :: (a.toNat % 4 * 16 + b.toNat / 16) :: (b.toNat % 16 * 4 + c.toNat / 64) ::
      c.toNat % 64 :: sextets rest

/-- The bytes of groups of six bits; what is left of the last group is dropped. -/
def ofSextets : List ℕ → Option (List UInt8)
  | [] => some []
  | [_] => none
  | [p, q] => some [UInt8.ofNat (p * 4 + q / 16)]
  | [p, q, r] => some [UInt8.ofNat (p * 4 + q / 16), UInt8.ofNat (q % 16 * 16 + r / 4)]
  | p :: q :: r :: s :: rest => (ofSextets rest).map fun bytes =>
    UInt8.ofNat (p * 4 + q / 16) :: UInt8.ofNat (q % 16 * 16 + r / 4) ::
      UInt8.ofNat (r % 4 * 64 + s) :: bytes

def encode (bytes : List UInt8) : Units :=
  (sextets bytes).map symbol ++ replicate ((3 - bytes.length % 3) % 3) pad

/-- A text of whole groups without its padding. -/
def unpad (s : Units) : Units :=
  if s.length % 4 = 0 then
    match s.reverse with
    | u :: v :: rest => if u = pad then if v = pad then rest.reverse else (v :: rest).reverse else s
    | _ => s
  else s

/-- The bytes of a text; where it is `padded`, its groups must be whole. -/
def decode (padded : Bool) (s : Units) : Option (List UInt8) :=
  if padded = true ∧ s.length % 4 ≠ 0 then none else (unpad s).mapM sextet >>= ofSextets

/-! ## Round trip -/

theorem sextet_symbol : ∀ n < 64, sextet (symbol n) = some n := by decide

theorem symbol_ne_pad : ∀ n < 64, symbol n ≠ pad := by decide

theorem sextets_lt : ∀ bytes : List UInt8, ∀ n ∈ sextets bytes, n < 64
  | [] => by simp [sextets]
  | [a] => by
    have ha : a.toNat < 256 := a.toNat_lt
    simp only [sextets, mem_cons, not_mem_nil, or_false, forall_eq_or_imp, forall_eq]
    omega
  | [a, b] => by
    have ha : a.toNat < 256 := a.toNat_lt
    have hb : b.toNat < 256 := b.toNat_lt
    simp only [sextets, mem_cons, not_mem_nil, or_false, forall_eq_or_imp, forall_eq]
    omega
  | a :: b :: c :: rest => by
    have ha : a.toNat < 256 := a.toNat_lt
    have hb : b.toNat < 256 := b.toNat_lt
    have hc : c.toNat < 256 := c.toNat_lt
    simp only [sextets, mem_cons, forall_eq_or_imp]
    exact ⟨by omega, by omega, by omega, by omega, sextets_lt rest⟩

theorem ofNat_eq {a : UInt8} {n : ℕ} (h : n = a.toNat) : UInt8.ofNat n = a := by
  rw [h, UInt8.ofNat_toNat]

theorem ofSextets_sextets : ∀ bytes : List UInt8, ofSextets (sextets bytes) = some bytes
  | [] => rfl
  | [a] => by
    have ha : a.toNat < 256 := a.toNat_lt
    rw [sextets, ofSextets, ofNat_eq (a := a) (by omega)]
  | [a, b] => by
    have ha : a.toNat < 256 := a.toNat_lt
    have hb : b.toNat < 256 := b.toNat_lt
    rw [sextets, ofSextets, ofNat_eq (a := a) (by omega), ofNat_eq (a := b) (by omega)]
  | a :: b :: c :: rest => by
    have ha : a.toNat < 256 := a.toNat_lt
    have hb : b.toNat < 256 := b.toNat_lt
    have hc : c.toNat < 256 := c.toNat_lt
    rw [sextets, ofSextets, ofSextets_sextets rest, Option.map_some,
      ofNat_eq (a := a) (by omega), ofNat_eq (a := b) (by omega), ofNat_eq (a := c) (by omega)]

theorem length_sextets : ∀ bytes : List UInt8,
    (sextets bytes).length % 4 = (4 - (3 - bytes.length % 3) % 3) % 4
  | [] => rfl
  | [_] => rfl
  | [_, _] => rfl
  | a :: b :: c :: rest => by
    have ih := length_sextets rest
    simp only [sextets, length_cons]
    omega

theorem length_encode (bytes : List UInt8) : (encode bytes).length % 4 = 0 := by
  have h := length_sextets bytes
  rw [encode, length_append, length_map, length_replicate]
  omega

/-- The padding is taken off what has no padding in it. -/
theorem unpad_append {s : Units} (hs : pad ∉ s) {n : ℕ} (hn : n ≤ 2)
    (hlength : (s ++ replicate n pad).length % 4 = 0) :
    unpad (s ++ replicate n pad) = s := by
  have hne : ∀ {u : UInt16}, u ∈ s.reverse → u ≠ pad := fun hu h => hs (h ▸ mem_reverse.mp hu)
  rw [unpad, if_pos hlength, reverse_append, reverse_replicate]
  obtain rfl | rfl | rfl : n = 0 ∨ n = 1 ∨ n = 2 := by omega
  · rw [replicate_zero, nil_append, append_nil]
    split
    case h_1 u v rest heq => rw [if_neg (hne (heq ▸ mem_cons_self))]
    case h_2 => rfl
  · rw [replicate_one, singleton_append]
    split
    case h_1 u v rest heq =>
      obtain ⟨rfl, hrest⟩ := cons.inj heq
      rw [if_pos rfl, if_neg (hne (hrest ▸ mem_cons_self)), ← hrest, reverse_reverse]
    case h_2 hnot =>
      cases hreverse : s.reverse with
      | nil =>
        rw [reverse_eq_nil_iff.mp hreverse] at hlength
        cases hlength
      | cons v rest => exact absurd (by rw [hreverse]) (hnot pad v rest)
  · show (if pad = pad then if pad = pad then s.reverse.reverse else _ else _) = s
    rw [if_pos rfl, if_pos rfl, reverse_reverse]

theorem mapM_sextet : ∀ {ns : List ℕ}, (∀ n ∈ ns, n < 64) → (ns.map symbol).mapM sextet = some ns
  | [], _ => rfl
  | n :: ns, h => by
    rw [map_cons, mapM_cons, sextet_symbol n (h n mem_cons_self),
      mapM_sextet fun m hm => h m (mem_cons_of_mem n hm)]
    rfl

/-- **The round trip.** -/
theorem decode_encode (padded : Bool) (bytes : List UInt8) :
    decode padded (encode bytes) = some bytes := by
  have hlength := length_encode bytes
  have hpad : pad ∉ (sextets bytes).map symbol := by
    intro hmem
    obtain ⟨n, hn, heq⟩ := mem_map.mp hmem
    exact symbol_ne_pad n (sextets_lt bytes n hn) heq
  rw [decode, if_neg fun h => h.2 hlength, encode,
    unpad_append hpad (by omega) (by rw [← encode]; exact hlength), mapM_sextet (sextets_lt bytes)]
  exact ofSextets_sextets bytes

/-- There are only symbols and padding in what is written. -/
theorem mem_encode {bytes : List UInt8} {u : UInt16} (h : u ∈ encode bytes) :
    u = pad ∨ ∃ n < 64, u = symbol n := by
  rcases mem_append.mp h with h | h
  · obtain ⟨n, hn, rfl⟩ := mem_map.mp h
    exact Or.inr ⟨n, sextets_lt bytes n hn, rfl⟩
  · exact Or.inl (eq_of_mem_replicate h)

/-! ## Strings of characters -/

def encodeText (bytes : List UInt8) : String :=
  String.ofList ((encode bytes).map fun u => Char.ofNat u.toNat)

def decodeText (s : String) : Option (List UInt8) := decode true (ofString s)

theorem ofChar_pad : ofChar (Char.ofNat pad.toNat) = [pad] := by decide

theorem ofChar_symbol : ∀ n < 64, ofChar (Char.ofNat (symbol n).toNat) = [symbol n] := by decide

theorem ofString_encodeText (bytes : List UInt8) : ofString (encodeText bytes) = encode bytes := by
  have hunits : ∀ u ∈ encode bytes, ofChar (Char.ofNat u.toNat) = [u] := by
    intro u hu
    rcases mem_encode hu with rfl | ⟨n, hn, rfl⟩
    · exact ofChar_pad
    · exact ofChar_symbol n hn
  rw [ofString, encodeText, String.toList_ofList, flatMap_map, flatMap_congr hunits]
  exact flatMap_singleton' _

/-- **What has been written is read.** -/
theorem decodeText_encodeText (bytes : List UInt8) :
    decodeText (encodeText bytes) = some bytes := by
  rw [decodeText, ofString_encodeText, decode_encode]

end Base64
