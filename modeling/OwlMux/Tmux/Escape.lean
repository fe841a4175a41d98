/-
The pane-output escapes of the tmux control protocol: `decode_escaped`, which turns the text of an `%output` record
back into bytes.

The decoder is the loop of the source, by index and with u8 arithmetic: a step that overflows is recorded, and ends the
run where overflow checks are compiled in. `Denotes` is the grammar it is for: a byte other than the backslash stands
for itself, `\\` for a backslash, and a backslash with three octal digits for the byte of that value, up to `\377`.

Results:
- `loop_eq_scan`: the loop never reads outside the buffer and is the structural scan of the rest;
- `decodeEscaped_meets`: it is exact and does not overflow on exactly the texts in which no escape reached by the scan
  has a first digit above 3; in particular it undoes tmux's encoder;
- `wide_escape_wraps`: `\400` is accepted as the byte 0, or overflows.
-/
import Mathlib.Tactic

namespace OwlMux.Tmux

abbrev Bytes := List UInt8

/-- how the function ends; the last two are panics -/
inductive Outcome where
  | ok (decoded : Bytes)
  | protocol
  | overflow
  | outOfRange
deriving DecidableEq, Repr

/-- a run of the decoder: how it ends, and whether a u8 operation overflowed on the way -/
structure Decoding where
  outcome : Outcome
  overflowed : Bool
deriving DecidableEq, Repr

/-! ## The code -/

def backslash : UInt8 := 92

def isOctal (b : UInt8) : Bool := 48 ≤ b && b ≤ 55

def checkedSub (a b : UInt8) : Option UInt8 := if b ≤ a then some (a - b) else none
def checkedMul (a b : UInt8) : Option UInt8 := if a.toNat * b.toNat < 256 then some (a * b) else none
def checkedAdd (a b : UInt8) : Option UInt8 := if a.toNat + b.toNat < 256 then some (a + b) else none

/-- `(value[index + 1] - b'0') * 64 + (value[index + 2] - b'0') * 8 + (value[index + 3] - b'0')`, if nothing overflows -/
def octalChecked (a b c : UInt8) : Option UInt8 := do
  let hi ← checkedMul (← checkedSub a 48) 64
  let mid ← checkedMul (← checkedSub b 48) 8
  checkedAdd (← checkedAdd hi mid) (← checkedSub c 48)

/-- the same in wrapping arithmetic -/
def octalWrapping (a b c : UInt8) : UInt8 := (a - 48) * 64 + (b - 48) * 8 + (c - 48)

/-- the while loop of `decode_escaped` from `index`; `checks` tells whether overflow checks are compiled in -/
def loop (checks : Bool) (value : Bytes) (index : ℕ) (decoded : Bytes) (overflowed : Bool) : Decoding :=
  if index < value.length then
    match value[index]? with
    | none => ⟨.outOfRange, overflowed⟩
    | some first =>
      if first ≠ backslash then loop checks value (index + 1) (decoded ++ [first]) overflowed
      else if value.length ≤ index + 1 then ⟨.protocol, overflowed⟩
      else
        match value[index + 1]? with
        | none => ⟨.outOfRange, overflowed⟩
        | some a =>
          if a = backslash then loop checks value (index + 2) (decoded ++ [backslash]) overflowed
          else if value.length ≤ index + 3 then ⟨.protocol, overflowed⟩
          else
            match value[index + 2]?, value[index + 3]? with
            | some b, some c =>
              if !isOctal a || !isOctal b || !isOctal c then ⟨.protocol, overflowed⟩
              else
                match octalChecked a b c with
                | some byte => loop checks value (index + 4) (decoded ++ [byte]) overflowed
                | none =>
                  if checks then ⟨.overflow, true⟩
                  else loop checks value (index + 4) (decoded ++ [octalWrapping a b c]) true
            | _, _ => ⟨.outOfRange, overflowed⟩
  else ⟨.ok decoded, overflowed⟩
termination_by value.length - index

/-- `decode_escaped` -/
def decodeEscaped (checks : Bool) (value : Bytes) : Decoding := loop checks value 0 [] false

/-! ## The grammar -/

/-- an octal digit as a byte of the text -/
def digit (n : ℕ) : UInt8 := UInt8.ofNat (48 + n)

/-- the text `value` stands for the bytes `decoded` -/
inductive Denotes : Bytes → Bytes → Prop
  | nil : Denotes [] []
  | plain {b : UInt8} {v out : Bytes} (hb : b ≠ backslash) (h : Denotes v out) : Denotes (b :: v) (b :: out)
  | double {v out : Bytes} (h : Denotes v out) : Denotes (backslash :: backslash :: v) (backslash :: out)
  | octal {x y z : ℕ} {v out : Bytes} (hx : x < 8) (hy : y < 8) (hz : z < 8) (hv : x * 64 + y * 8 + z ≤ 255)
      (h : Denotes v out) :
      Denotes (backslash :: digit x :: digit y :: digit z :: v) (UInt8.ofNat (x * 64 + y * 8 + z) :: out)

/-- what tmux writes: bytes below 0x20 and backslashes as three octal digits, every other byte as it is -/
def encodeByte (b : UInt8) : Bytes :=
  if b < 32 || b = backslash then
    [backslash, digit (b.toNat / 64), digit (b.toNat / 8 % 8), digit (b.toNat % 8)]
  else [b]

def encode (bytes : Bytes) : Bytes := bytes.flatMap encodeByte

/-- a well-formed part is followed by an escape of three octal digits above `\377` -/
def Wide (value : Bytes) : Prop :=
  ∃ pre out, Denotes pre out ∧ ∃ x y z rest, 4 ≤ x ∧ x < 8 ∧ y < 8 ∧ z < 8 ∧
    value = pre ++ backslash :: digit x :: digit y :: digit z :: rest

/-- the decoder is exact on a text: no overflow, no index out of range, and it accepts what the grammar accepts -/
structure Meets (checks : Bool) (value : Bytes) : Prop where
  overflow : (decodeEscaped checks value).overflowed = false
  range : (decodeEscaped checks value).outcome ≠ .outOfRange
  exact : ∀ out, (decodeEscaped checks value).outcome = .ok out ↔ Denotes value out

/-! ## The loop as a scan of the rest -/

/-- the loop on the part of the buffer it has not read -/
def scan (checks : Bool) : Bytes → Bytes → Bool → Decoding
  | [], decoded, o => ⟨.ok decoded, o⟩
  | first :: rest, decoded, o =>
    if first ≠ backslash then scan checks rest (decoded ++ [first]) o
    else
      match rest with
      | [] => ⟨.protocol, o⟩
      | a :: rest =>
        if a = backslash then scan checks rest (decoded ++ [backslash]) o
        else
          match rest with
          | b :: c :: rest =>
            if !isOctal a || !isOctal b || !isOctal c then ⟨.protocol, o⟩
            else
              match octalChecked a b c with
              | some byte => scan checks rest (decoded ++ [byte]) o
              | none => if checks then ⟨.overflow, true⟩ else scan checks rest (decoded ++ [octalWrapping a b c]) true
          | _ => ⟨.protocol, o⟩

theorem scan_plain (checks : Bool) {b : UInt8} (hb : b ≠ backslash) (v decoded : Bytes) (o : Bool) :
    scan checks (b :: v) decoded o = scan checks v (decoded ++ [b]) o := by
  rw [scan.eq_def]
  simp only [if_pos hb]

theorem scan_double (checks : Bool) (v decoded : Bytes) (o : Bool) :
    scan checks (backslash :: backslash :: v) decoded o = scan checks v (decoded ++ [backslash]) o := by
  rw [scan.eq_def]
  simp

theorem scan_escape (checks : Bool) {a : UInt8} (ha : a ≠ backslash) (b c : UInt8) (v decoded : Bytes) (o : Bool) :
    scan checks (backslash :: a :: b :: c :: v) decoded o =
      if !isOctal a || !isOctal b || !isOctal c then ⟨.protocol, o⟩
      else
        match octalChecked a b c with
        | some byte => scan checks v (decoded ++ [byte]) o
        | none => if checks then ⟨.overflow, true⟩ else scan checks v (decoded ++ [octalWrapping a b c]) true := by
  rw [scan.eq_def]
  simp only [ne_eq, not_true_eq_false, if_false, if_neg ha]

/-- a backslash with too few bytes behind it -/
theorem scan_short (checks : Bool) {rest : Bytes} (h0 : ∀ v, rest ≠ backslash :: v)
    (h : ∀ a b c v, rest = a :: b :: c :: v → False) (decoded : Bytes) (o : Bool) :
    scan checks (backslash :: rest) decoded o = ⟨.protocol, o⟩ := by
  match rest, h0, h with
  | [], _, _ => rw [scan.eq_def]; simp
  | [a], h0, _ => rw [scan.eq_def]; simp [show a ≠ backslash from fun e => h0 [] (by rw [e])]
  | [a, b], h0, _ => rw [scan.eq_def]; simp [show a ≠ backslash from fun e => h0 [b] (by rw [e])]
  | a :: b :: c :: v, _, h => exact (h a b c v rfl).elim

theorem short_of {a : UInt8} {rest : Bytes} (h : ∀ b c v, rest = b :: c :: v → False) :
    ∀ a' b c v, a :: rest = a' :: b :: c :: v → False := by
  intro a' b c v e
  exact h b c v (List.cons.inj e).2

theorem drop_cons {v : Bytes} {i : ℕ} {b : UInt8} {rest : Bytes} (h : v.drop i = b :: rest) :
    i < v.length ∧ v[i]? = some b ∧ v.drop (i + 1) = rest := by
  have hlen : i < v.length := by
    by_contra hn
    rw [List.drop_eq_nil_of_le (by omega)] at h
    cases h
  refine ⟨hlen, ?_, ?_⟩
  · rw [← List.head?_drop, h]
    rfl
  · rw [← List.tail_drop, h]
    rfl

theorem length_le_of_drop {v : Bytes} {i : ℕ} (h : v.drop i = []) : v.length ≤ i := List.drop_eq_nil_iff.1 h

/-- the four bytes of an escape, with what the bounds tests of the loop see -/
theorem drop_escape {v : Bytes} {i : ℕ} {a b c d : UInt8} {rest : Bytes} (h : v.drop i = a :: b :: c :: d :: rest) :
    i + 3 < v.length ∧ v[i]? = some a ∧ v[i + 1]? = some b ∧ v[i + 2]? = some c ∧ v[i + 3]? = some d ∧
      v.drop (i + 4) = rest := by
  obtain ⟨-, ha, h1⟩ := drop_cons h
  obtain ⟨-, hb, h2⟩ := drop_cons h1
  obtain ⟨-, hc, h3⟩ := drop_cons h2
  obtain ⟨hi, hd, h4⟩ := drop_cons h3
  exact ⟨hi, ha, hb, hc, hd, h4⟩

/-- **The loop reads only what is there.** From any index it is the scan of the rest. -/
theorem loop_eq_scan (checks : Bool) (value : Bytes) (index : ℕ) (decoded : Bytes) (o : Bool) :
    loop checks value index decoded o = scan checks (value.drop index) decoded o := by
  -- by the cases of the scan: each tells the bytes at `index` and after it
  generalize hr : value.drop index = r
  induction r, decoded, o using scan.induct checks generalizing index with
  | case1 decoded o =>
    have := length_le_of_drop hr
    rw [loop, if_neg (by omega), scan]
  | case2 first rest decoded o hne ih =>
    obtain ⟨hi, h0, h1⟩ := drop_cons hr
    rw [loop, if_pos hi, h0, scan_plain checks hne]
    simp only [if_pos hne]
    exact ih _ h1
  | case3 first decoded o hne =>
    obtain ⟨hi, h0, h1⟩ := drop_cons hr
    have := length_le_of_drop h1
    rw [loop, if_pos hi, h0, not_not.1 hne, scan_short checks (by simp) (by simp)]
    simp only [if_pos this, ne_eq, not_true_eq_false, if_false]
  | case4 first decoded o hne rest ih =>
    obtain ⟨hi, h0, h1⟩ := drop_cons hr
    obtain ⟨hi1, h0', h2⟩ := drop_cons h1
    rw [loop, if_pos hi, h0, not_not.1 hne, scan_double]
    simp only [ne_eq, not_true_eq_false, if_false, h0', if_neg (Nat.not_le.2 hi1), if_true]
    exact ih _ h2
  | case5 first decoded o hne a ha b c rest hd =>
    obtain ⟨hi, h0, h1, h2, h3, h4⟩ := drop_escape hr
    rw [loop, if_pos (by omega), h0, not_not.1 hne, scan_escape checks ha]
    simp only [ne_eq, not_true_eq_false, if_false, h1, if_neg (show ¬ value.length ≤ index + 1 by omega), if_neg ha,
      if_neg (show ¬ value.length ≤ index + 3 by omega), h2, h3, if_pos hd]
  | case6 first decoded o hne a ha b c rest hd byte hbyte ih =>
    obtain ⟨hi, h0, h1, h2, h3, h4⟩ := drop_escape hr
    rw [loop, if_pos (by omega), h0, not_not.1 hne, scan_escape checks ha]
    simp only [ne_eq, not_true_eq_false, if_false, h1, if_neg (show ¬ value.length ≤ index + 1 by omega), if_neg ha,
      if_neg (show ¬ value.length ≤ index + 3 by omega), h2, h3, if_neg hd, hbyte]
    exact ih _ h4
  | case7 first decoded o hne a ha b c rest hd hbyte hcheck =>
    obtain ⟨hi, h0, h1, h2, h3, h4⟩ := drop_escape hr
    rw [loop, if_pos (by omega), h0, not_not.1 hne, scan_escape checks ha]
    simp only [ne_eq, not_true_eq_false, if_false, h1, if_neg (show ¬ value.length ≤ index + 1 by omega), if_neg ha,
      if_neg (show ¬ value.length ≤ index + 3 by omega), h2, h3, if_neg hd, hbyte, if_pos hcheck]
  | case8 first decoded o hne a ha b c rest hd hbyte hcheck ih =>
    obtain ⟨hi, h0, h1, h2, h3, h4⟩ := drop_escape hr
    rw [loop, if_pos (by omega), h0, not_not.1 hne, scan_escape checks ha]
    simp only [ne_eq, not_true_eq_false, if_false, h1, if_neg (show ¬ value.length ≤ index + 1 by omega), if_neg ha,
      if_neg (show ¬ value.length ≤ index + 3 by omega), h2, h3, if_neg hd, hbyte, if_neg hcheck]
    exact ih _ h4
  | case9 first decoded o hne a rest ha hshort =>
    obtain ⟨hi, h0, h1⟩ := drop_cons hr
    obtain ⟨hi1, h0', h2⟩ := drop_cons h1
    have hlen : value.length ≤ index + 3 := by
      have h := congrArg List.length h2
      rw [List.length_drop] at h
      match rest, hshort with
      | [], _ => simp at h; omega
      | [_], _ => simp at h; omega
      | b :: c :: r, hs => exact (hs b c r rfl).elim
    rw [loop, if_pos hi, h0, not_not.1 hne, scan_short checks (by simp [ha]) (short_of hshort)]
    simp only [ne_eq, not_true_eq_false, if_false, h0', if_neg (Nat.not_le.2 hi1), if_neg ha, if_pos hlen]

theorem decodeEscaped_eq (checks : Bool) (value : Bytes) : decodeEscaped checks value = scan checks value [] false :=
  loop_eq_scan checks value 0 [] false

example : (decodeEscaped false [92, 49, 48, 49, 92, 92]).outcome = .ok [65, 92] := by decide +kernel

/-! ## The scan against the grammar -/

theorem isOctal_digit : ∀ x : Fin 8, isOctal (digit x) = true ∧ digit x ≠ backslash := by decide

theorem exists_digit {b : UInt8} (h : isOctal b = true) : ∃ x : Fin 8, b = digit x := by
  simp only [isOctal, Bool.and_eq_true, decide_eq_true_eq] at h
  obtain ⟨h1, h2⟩ := h
  have h1' : 48 ≤ b.toNat := h1
  have h2' : b.toNat ≤ 55 := h2
  refine ⟨⟨b.toNat - 48, by omega⟩, ?_⟩
  rw [digit, show 48 + (b.toNat - 48) = b.toNat by omega, UInt8.ofNat_toNat]

/-- three digits have a byte exactly when the first is at most 3 -/
theorem octalChecked_digit : ∀ x y z : Fin 8, octalChecked (digit x) (digit y) (digit z) =
    if x.val < 4 then some (UInt8.ofNat (x.val * 64 + y.val * 8 + z.val)) else none := by decide +kernel

theorem scan_octal (checks : Bool) (x y z : Fin 8) (v decoded : Bytes) (o : Bool) :
    scan checks (backslash :: digit x :: digit y :: digit z :: v) decoded o =
      match octalChecked (digit x) (digit y) (digit z) with
      | some byte => scan checks v (decoded ++ [byte]) o
      | none =>
        if checks then ⟨.overflow, true⟩
        else scan checks v (decoded ++ [octalWrapping (digit x) (digit y) (digit z)]) true := by
  rw [scan_escape checks (isOctal_digit x).2]
  simp only [(isOctal_digit x).1, (isOctal_digit y).1, (isOctal_digit z).1, Bool.not_true, Bool.or_self,
    Bool.false_eq_true, if_false]

/-- a well-formed part is read as its bytes -/
theorem scan_append (checks : Bool) {pre out : Bytes} (h : Denotes pre out) (rest decoded : Bytes) (o : Bool) :
    scan checks (pre ++ rest) decoded o = scan checks rest (decoded ++ out) o := by
  induction h generalizing decoded with
  | nil => simp
  | @plain b v out hb h ih => rw [List.cons_append, scan_plain checks hb, ih, List.append_assoc, List.singleton_append]
  | @double v out h ih =>
    rw [List.cons_append, List.cons_append, scan_double, ih, List.append_assoc, List.singleton_append]
  | @octal x y z v out hx hy hz hv h ih =>
    have hlt : x < 4 := by omega
    have hs := scan_octal checks ⟨x, hx⟩ ⟨y, hy⟩ ⟨z, hz⟩ (v ++ rest) decoded o
    rw [octalChecked_digit] at hs
    simp only [if_pos hlt] at hs
    simp only [List.cons_append]
    rw [hs, ih, List.append_assoc, List.singleton_append]

/-- an overflow stays on record -/
theorem scan_overflowed (checks : Bool) (v decoded : Bytes) {o : Bool} (ho : o = true) :
    (scan checks v decoded o).overflowed = true := by
  induction v, decoded, o using scan.induct checks with
  | case1 => rwa [scan]
  | case2 _ _ _ _ hne ih =>
    rw [scan_plain checks hne]
    exact ih ho
  | case3 _ _ _ hne => rwa [not_not.1 hne, scan_short checks (by simp) (by simp)]
  | case4 _ _ _ hne _ ih =>
    rw [not_not.1 hne, scan_double]
    exact ih ho
  | case5 _ _ _ hne _ ha _ _ _ hd => rwa [not_not.1 hne, scan_escape checks ha, if_pos hd]
  | case6 _ _ _ hne _ ha _ _ _ hd _ hbyte ih =>
    rw [not_not.1 hne, scan_escape checks ha, if_neg hd, hbyte]
    exact ih ho
  | case7 _ _ _ hne _ ha _ _ _ hd hbyte hcheck =>
    rw [not_not.1 hne, scan_escape checks ha, if_neg hd, hbyte]
    simp only [if_pos hcheck]
  | case8 _ _ _ hne _ ha _ _ _ hd hbyte hcheck ih =>
    rw [not_not.1 hne, scan_escape checks ha, if_neg hd, hbyte]
    simp only [if_neg hcheck]
    exact ih rfl
  | case9 _ _ _ hne _ _ ha hshort => rwa [not_not.1 hne, scan_short checks (by simp [ha]) (short_of hshort)]

theorem scan_wide (checks : Bool) {v : Bytes} (h : Wide v) (decoded : Bytes) (o : Bool) :
    (scan checks v decoded o).overflowed = true := by
  obtain ⟨pre, out, hd, x, y, z, rest, h4, hx, hy, hz, rfl⟩ := h
  rw [scan_append checks hd]
  have hs := scan_octal checks ⟨x, hx⟩ ⟨y, hy⟩ ⟨z, hz⟩ rest (decoded ++ out) o
  rw [octalChecked_digit] at hs
  simp only [if_neg (show ¬ x < 4 by omega)] at hs
  rw [hs]
  cases checks with
  | true => rfl
  | false => exact scan_overflowed false _ _ rfl

theorem Wide.cons {b : UInt8} {v : Bytes} (hb : b ≠ backslash) (h : Wide v) : Wide (b :: v) := by
  obtain ⟨pre, out, hd, x, y, z, rest, h4, hx, hy, hz, rfl⟩ := h
  exact ⟨b :: pre, b :: out, .plain hb hd, x, y, z, rest, h4, hx, hy, hz, rfl⟩

theorem Wide.double {v : Bytes} (h : Wide v) : Wide (backslash :: backslash :: v) := by
  obtain ⟨pre, out, hd, x, y, z, rest, h4, hx, hy, hz, rfl⟩ := h
  exact ⟨_, _, .double hd, x, y, z, rest, h4, hx, hy, hz, rfl⟩

theorem Wide.octal {a b c : Fin 8} {v : Bytes} (ha : a.val < 4) (h : Wide v) :
    Wide (backslash :: digit a :: digit b :: digit c :: v) := by
  obtain ⟨pre, out, hd, x, y, z, rest, h4, hx, hy, hz, rfl⟩ := h
  exact ⟨_, _, .octal a.isLt b.isLt c.isLt (by omega) hd, x, y, z, rest, h4, hx, hy, hz, rfl⟩

/-- what the scan reports is right: an overflow comes from a wide escape, and without one the bytes are those denoted -/
theorem scan_sound (checks : Bool) (v decoded : Bytes) (o : Bool) :
    ((scan checks v decoded o).overflowed = true → o = true ∨ Wide v) ∧
      (scan checks v decoded o).outcome ≠ .outOfRange ∧
      (∀ d, (scan checks v decoded o).outcome = .ok d → (scan checks v decoded o).overflowed = false →
        ∃ out, Denotes v out ∧ d = decoded ++ out) := by
  induction v, decoded, o using scan.induct checks with
  | case1 decoded o =>
    rw [scan]
    refine ⟨Or.inl, by simp, fun d hd _ => ⟨[], .nil, ?_⟩⟩
    simpa using hd.symm
  | case2 first rest decoded o hne ih =>
    rw [scan_plain checks hne]
    refine ⟨fun h => (ih.1 h).imp_right (.cons hne), ih.2.1, fun d hd ho => ?_⟩
    obtain ⟨out, hout, rfl⟩ := ih.2.2 d hd ho
    exact ⟨first :: out, .plain hne hout, by simp⟩
  | case3 first decoded o hne =>
    rw [not_not.1 hne, scan_short checks (by simp) (by simp)]
    exact ⟨Or.inl, by simp, by simp⟩
  | case4 first decoded o hne rest ih =>
    rw [not_not.1 hne, scan_double]
    refine ⟨fun h => (ih.1 h).imp_right .double, ih.2.1, fun d hd ho => ?_⟩
    obtain ⟨out, hout, rfl⟩ := ih.2.2 d hd ho
    exact ⟨backslash :: out, .double hout, by simp⟩
  | case5 first decoded o hne a ha b c rest hd =>
    rw [not_not.1 hne, scan_escape checks ha, if_pos hd]
    exact ⟨Or.inl, by simp, by simp⟩
  | case6 first decoded o hne a ha b c rest hd byte hbyte ih =>
    simp only [Bool.or_eq_true, Bool.not_eq_true', not_or, Bool.not_eq_false] at hd
    obtain ⟨x, rfl⟩ := exists_digit hd.1.1
    obtain ⟨y, rfl⟩ := exists_digit hd.1.2
    obtain ⟨z, rfl⟩ := exists_digit hd.2
    rw [not_not.1 hne, scan_octal, hbyte]
    rw [octalChecked_digit] at hbyte
    split_ifs at hbyte with hx
    cases hbyte
    refine ⟨fun h => (ih.1 h).imp_right (.octal hx), ih.2.1, fun d hd ho => ?_⟩
    obtain ⟨out, hout, rfl⟩ := ih.2.2 d hd ho
    exact ⟨_, .octal x.isLt y.isLt z.isLt (by omega) hout, by simp⟩
  | case7 first decoded o hne a ha b c rest hd hbyte hcheck =>
    simp only [Bool.or_eq_true, Bool.not_eq_true', not_or, Bool.not_eq_false] at hd
    obtain ⟨x, rfl⟩ := exists_digit hd.1.1
    obtain ⟨y, rfl⟩ := exists_digit hd.1.2
    obtain ⟨z, rfl⟩ := exists_digit hd.2
    rw [not_not.1 hne, scan_octal, hbyte, hcheck]
    rw [octalChecked_digit] at hbyte
    split_ifs at hbyte with hx
    exact ⟨fun _ => Or.inr ⟨[], [], .nil, x, y, z, rest, by omega, x.isLt, y.isLt, z.isLt, rfl⟩, by simp, by simp⟩
  | case8 first decoded o hne a ha b c rest hd hbyte hcheck ih =>
    simp only [Bool.or_eq_true, Bool.not_eq_true', not_or, Bool.not_eq_false] at hd
    obtain ⟨x, rfl⟩ := exists_digit hd.1.1
    obtain ⟨y, rfl⟩ := exists_digit hd.1.2
    obtain ⟨z, rfl⟩ := exists_digit hd.2
    rw [not_not.1 hne, scan_octal, hbyte]
    simp only [if_neg hcheck]
    rw [octalChecked_digit] at hbyte
    split_ifs at hbyte with hx
    refine ⟨fun _ => Or.inr ⟨[], [], .nil, x, y, z, rest, by omega, x.isLt, y.isLt, z.isLt, rfl⟩, ih.2.1, fun d _ ho => ?_⟩
    rw [scan_overflowed checks _ _ rfl] at ho
    cases ho
  | case9 first decoded o hne a rest ha hshort =>
    rw [not_not.1 hne, scan_short checks (by simp [ha]) (short_of hshort)]
    exact ⟨Or.inl, by simp, by simp⟩

theorem encodeByte_denotes (b : UInt8) {v out : Bytes} (h : Denotes v out) : Denotes (encodeByte b ++ v) (b :: out) := by
  unfold encodeByte
  split_ifs with hb
  · have hlt := b.toNat_lt
    have hv : b.toNat / 64 * 64 + b.toNat / 8 % 8 * 8 + b.toNat % 8 = b.toNat := by omega
    have hd := Denotes.octal (show b.toNat / 64 < 8 by omega) (show b.toNat / 8 % 8 < 8 by omega)
      (show b.toNat % 8 < 8 by omega) (by omega) h
    rw [hv, UInt8.ofNat_toNat] at hd
    exact hd
  · simp only [Bool.or_eq_true, decide_eq_true_eq, not_or] at hb
    exact .plain hb.2 h

/-- what tmux writes denotes what it encoded -/
theorem encode_denotes (b : Bytes) : Denotes (encode b) b := by
  induction b with
  | nil => exact .nil
  | cons b bs ih => exact encodeByte_denotes b ih

theorem meets_iff (checks : Bool) (value : Bytes) : Meets checks value ↔ ¬ Wide value := by
  constructor
  · intro h hw
    have ho := h.overflow
    rw [decodeEscaped_eq, scan_wide checks hw] at ho
    cases ho
  · intro hw
    obtain ⟨h1, h2, h3⟩ := scan_sound checks value [] false
    have ho : (scan checks value [] false).overflowed = false := by
      by_contra hn
      rcases h1 (by simpa using hn) with h | h
      · cases h
      · exact hw h
    rw [← decodeEscaped_eq] at h2 h3 ho
    refine ⟨ho, h2, fun out => ⟨fun hok => ?_, fun hd => ?_⟩⟩
    · obtain ⟨out', hd, rfl⟩ := h3 out hok ho
      exact hd
    · have := scan_append checks hd [] [] false
      rw [List.append_nil] at this
      rw [decodeEscaped_eq, this, scan]
      rfl

/-- **Exactness of `decode_escaped`.** With or without overflow checks it accepts exactly the grammar, returns the bytes
denoted and overflows nowhere, if and only if no escape that the scan reaches is above `\377`; so it undoes tmux's
encoder on every byte string. -/
theorem decodeEscaped_meets (checks : Bool) :
    (∀ value, Meets checks value ↔ ¬ Wide value) ∧
      ∀ b, decodeEscaped checks (encode b) = ⟨.ok b, false⟩ := by
  refine ⟨meets_iff checks, fun b => ?_⟩
  have h := scan_append checks (encode_denotes b) [] [] false
  rw [List.append_nil] at h
  rw [decodeEscaped_eq, h, scan]
  rfl

/-- **A wide escape.** `\400` is no escape of the grammar: without overflow checks it is accepted as the byte 0, with
them the first product overflows. -/
theorem wide_escape_wraps :
    decodeEscaped false [92, 52, 48, 48] = ⟨.ok [0], true⟩ ∧ decodeEscaped true [92, 52, 48, 48] = ⟨.overflow, true⟩ ∧
      ¬ Meets false [92, 52, 48, 48] ∧ ¬ Meets true [92, 52, 48, 48] := by
  have hw : Wide [92, 52, 48, 48] := ⟨[], [], .nil, 4, 0, 0, [], by decide, by decide, by decide, by decide, rfl⟩
  refine ⟨?_, ?_, fun h => (meets_iff _ _).1 h hw, fun h => (meets_iff _ _).1 h hw⟩
  · rw [decodeEscaped_eq]
    decide
  · rw [decodeEscaped_eq]
    decide

end OwlMux.Tmux
