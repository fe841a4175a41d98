/-
base64url without padding (the `URL_SAFE_NO_PAD` alphabet and rules): three bytes become four characters, a tail of one
or two bytes becomes two or three. Decoding refuses characters outside the alphabet, a length of 1 mod 4, and unused
low bits that are not zero.

- `decode_encode`: decoding undoes encoding, for every byte string;
- `length_encode`: the length of the text, `⌈4n/3⌉` characters for n bytes;
- `encode_mem_alphabet`: every character of an encoded text is in the alphabet, so none needs escaping in a text format.
-/
import Mathlib.Tactic

namespace OwlMux.Base64Url

/-- the 64 characters, by value -/
def alphabet : List Char := "ABCDEFGHIJKLMNOPQRSTUVWXYZabcdefghijklmnopqrstuvwxyz0123456789-_".toList

/-- the character of a six-bit value -/
def symbol (n : ℕ) : Char := alphabet.getD n 'A'

/-- the six-bit value of a character, if it has one -/
def value (c : Char) : Option ℕ := alphabet.idxOf? c

def encode : List UInt8 → List Char
  | [] => []
  | [a] => [symbol (a.toNat / 4), symbol (a.toNat % 4 * 16)]
  | [a, b] => [symbol (a.toNat / 4), symbol (a.toNat % 4 * 16 + b.toNat / 16), symbol (b.toNat % 16 * 4)]
  | a :: b :: c :: rest =>
    symbol (a.toNat / 4) :: symbol (a.toNat % 4 * 16 + b.toNat / 16) ::
      symbol (b.toNat % 16 * 4 + c.toNat / 64) :: symbol (c.toNat % 64) :: encode rest

def decode : List Char → Option (List UInt8)
  | [] => some []
  | [_] => none
  | [x, y] => do
    let p ← value x
    let q ← value y
    -- the low four bits of the last character carry no byte
    if q % 16 = 0 then some [UInt8.ofNat (p * 4 + q / 16)] else none
  | [x, y, z] => do
    let p ← value x
    let q ← value y
    let r ← value z
    if r % 4 = 0 then some [UInt8.ofNat (p * 4 + q / 16), UInt8.ofNat (q % 16 * 16 + r / 4)] else none
  | x :: y :: z :: w :: rest => do
    let p ← value x
    let q ← value y
    let r ← value z
    let t ← value w
    let bytes ← decode rest
    some (UInt8.ofNat (p * 4 + q / 16) :: UInt8.ofNat (q % 16 * 16 + r / 4) :: UInt8.ofNat (r % 4 * 64 + t) :: bytes)

theorem value_symbol {n : ℕ} (h : n < 64) : value (symbol n) = some n := by
  have key : ∀ m : Fin 64, value (symbol m) = some m.val := by decide +kernel
  exact key ⟨n, h⟩

theorem symbol_mem (n : ℕ) : symbol n ∈ alphabet := by
  unfold symbol
  rw [List.getD_eq_getElem?_getD]
  cases h : alphabet[n]? with
  | none => decide
  | some c => exact List.mem_of_getElem? h

theorem ofNat_eq {a : UInt8} {n : ℕ} (h : n = a.toNat) : UInt8.ofNat n = a := by
  rw [h]; exact UInt8.ofNat_toNat

/-- **Round trip.** Decoding an encoded byte string returns it. -/
@[simp]
theorem decode_encode (b : List UInt8) : decode (encode b) = some b := by
  induction b using encode.induct with
  | case1 => rfl
  | case2 a =>
    have ha := a.toNat_lt
    have h1 : value (symbol (a.toNat / 4)) = some (a.toNat / 4) := value_symbol (by omega)
    have h2 : value (symbol (a.toNat % 4 * 16)) = some (a.toNat % 4 * 16) := value_symbol (by omega)
    simp only [encode, decode, h1, h2, Option.bind_eq_bind, Option.bind_some]
    rw [if_pos (by omega), ofNat_eq (a := a) (by omega)]
  | case3 a b =>
    have ha := a.toNat_lt
    have hb := b.toNat_lt
    have h1 : value (symbol (a.toNat / 4)) = some (a.toNat / 4) := value_symbol (by omega)
    have h2 : value (symbol (a.toNat % 4 * 16 + b.toNat / 16)) = some (a.toNat % 4 * 16 + b.toNat / 16) :=
      value_symbol (by omega)
    have h3 : value (symbol (b.toNat % 16 * 4)) = some (b.toNat % 16 * 4) := value_symbol (by omega)
    simp only [encode, decode, h1, h2, h3, Option.bind_eq_bind, Option.bind_some]
    rw [if_pos (by omega), ofNat_eq (a := a) (by omega), ofNat_eq (a := b) (by omega)]
  | case4 a b c rest ih =>
    have ha := a.toNat_lt
    have hb := b.toNat_lt
    have hc := c.toNat_lt
    have h1 : value (symbol (a.toNat / 4)) = some (a.toNat / 4) := value_symbol (by omega)
    have h2 : value (symbol (a.toNat % 4 * 16 + b.toNat / 16)) = some (a.toNat % 4 * 16 + b.toNat / 16) :=
      value_symbol (by omega)
    have h3 : value (symbol (b.toNat % 16 * 4 + c.toNat / 64)) = some (b.toNat % 16 * 4 + c.toNat / 64) :=
      value_symbol (by omega)
    have h4 : value (symbol (c.toNat % 64)) = some (c.toNat % 64) := value_symbol (by omega)
    simp only [encode, decode, h1, h2, h3, h4, ih, Option.bind_eq_bind, Option.bind_some]
    rw [ofNat_eq (a := a) (by omega), ofNat_eq (a := b) (by omega), ofNat_eq (a := c) (by omega)]

theorem length_encode (b : List UInt8) : (encode b).length = (4 * b.length + 2) / 3 := by
  induction b using encode.induct with
  | case1 => rfl
  | case2 a => simp [encode]
  | case3 a b => simp [encode]
  | case4 a b c rest ih => simp only [encode, List.length_cons, ih]; omega

theorem encode_mem_alphabet (b : List UInt8) : ∀ c ∈ encode b, c ∈ alphabet := by
  induction b using encode.induct with
  | case1 => simp [encode]
  | case2 a => simp [encode, symbol_mem]
  | case3 a b => simp [encode, symbol_mem]
  | case4 a b c rest ih => simpa [encode, symbol_mem] using ih

end OwlMux.Base64Url
