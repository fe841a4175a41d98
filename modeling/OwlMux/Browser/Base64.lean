/-
base64url on both sides of an attachment: `encodeBase64Url` and `decodeBase64Url` of `apps/web/src/attachment.ts`, which go through
`btoa` and `atob`, and `decode_input` of `attachment.rs`.

Browser strings are lists of UTF-16 code units. `atob` is forgiving: it drops white space and up to two padding characters, and
ignores the unused low bits of the last character. An exception is `none`.

Results:
- `Js.encodeBase64Url_eq`: the Browser writes the same text as the Server's engine;
- `Js.decodeBase64Url_eq_some_iff`: it accepts exactly the canonical texts within the limit, and `decodeBase64Url_contract`: so does
  the reading of frames in `Contract`;
- `base64url_agree`: each side reads what the other writes, and nothing else.
-/
import Mathlib.Data.Bool.AllAny
import Mathlib.Data.List.DropRight
import Mathlib.Tactic
import OwlMux.Browser.Contract
import OwlMux.Writer.Frames

namespace OwlMux.Browser

open OwlMux.Relay (Text byteLen)
open OwlMux.Writer (decodeInput attachmentMaxInputBytes)
open OwlMux.Tmux (attachmentMaxTerminalChunkBytes)

namespace Js

/-! ## The platform's routines -/

/-- UTF-16 code units -/
abbrev JsString := List UInt16

def unit (c : Char) : UInt16 := UInt16.ofNat c.toNat

/-- a text as the Browser holds it -/
def utf16 (t : Text) : JsString :=
  t.flatMap fun c =>
    if c.toNat < 0x10000 then [unit c]
    else [UInt16.ofNat (0xD800 + (c.toNat - 0x10000) / 0x400), UInt16.ofNat (0xDC00 + (c.toNat - 0x10000) % 0x400)]

def standardAlphabet : List Char := "ABCDEFGHIJKLMNOPQRSTUVWXYZabcdefghijklmnopqrstuvwxyz0123456789+/".toList

def symbolUnit (n : ℕ) : UInt16 := unit (standardAlphabet.getD n 'A')

def unitValue (u : UInt16) : Option ℕ := (standardAlphabet.map unit).idxOf? u

/-- '=' -/
def padding : UInt16 := 61

def btoaBytes : List UInt8 → JsString
  | [] => []
  | [a] => [symbolUnit (a.toNat / 4), symbolUnit (a.toNat % 4 * 16), padding, padding]
  | [a, b] =>
    [symbolUnit (a.toNat / 4), symbolUnit (a.toNat % 4 * 16 + b.toNat / 16), symbolUnit (b.toNat % 16 * 4), padding]
  | a :: b :: c :: rest =>
    symbolUnit (a.toNat / 4) :: symbolUnit (a.toNat % 4 * 16 + b.toNat / 16) ::
      symbolUnit (b.toNat % 16 * 4 + c.toNat / 64) :: symbolUnit (c.toNat % 64) :: btoaBytes rest

/-- a code unit above 255 is an exception -/
def btoa (binary : JsString) : Option JsString :=
  if binary.any fun u => 255 < u.toNat then none else some (btoaBytes (binary.map fun u => UInt8.ofNat u.toNat))

def atobBytes : JsString → Option (List UInt8)
  | [] => some []
  | [_] => none
  | [x, y] => do
    let p ← unitValue x
    let q ← unitValue y
    some [UInt8.ofNat (p * 4 + q / 16)]
  | [x, y, z] => do
    let p ← unitValue x
    let q ← unitValue y
    let r ← unitValue z
    some [UInt8.ofNat (p * 4 + q / 16), UInt8.ofNat (q % 16 * 16 + r / 4)]
  | x :: y :: z :: w :: rest => do
    let p ← unitValue x
    let q ← unitValue y
    let r ← unitValue z
    let t ← unitValue w
    let bytes ← atobBytes rest
    some (UInt8.ofNat (p * 4 + q / 16) :: UInt8.ofNat (q % 16 * 16 + r / 4) :: UInt8.ofNat (r % 4 * 64 + t) :: bytes)

def isAsciiWhitespace (u : UInt16) : Bool := u ∈ [9, 10, 12, 13, 32]

def stripOne (s : JsString) : JsString := if s.getLast? = some padding then s.dropLast else s

/-- up to two padding characters, when the length is a multiple of four -/
def stripPadding (s : JsString) : JsString :=
  if s.length % 4 = 0 ∧ s.getLast? = some padding then stripOne s.dropLast else s

def fromBytes (bytes : List UInt8) : JsString := bytes.map fun b => UInt16.ofNat b.toNat

def atob (s : JsString) : Option JsString := (atobBytes (stripPadding (s.filter fun u => !isAsciiWhitespace u))).map fromBytes

/-! ## `attachment.ts` -/

def replaceAll (old new : Char) (s : JsString) : JsString := s.map fun u => if u = unit old then unit new else u

def encodeBase64Url (bytes : List UInt8) : Option JsString :=
  (btoa (fromBytes bytes)).map fun s => (replaceAll '/' '_' (replaceAll '+' '-' s)).rdropWhile (· = padding)

/-- `[A-Za-z0-9_-]` -/
def isUrlUnit (u : UInt16) : Bool :=
  (65 ≤ u.toNat && u.toNat ≤ 90) || (97 ≤ u.toNat && u.toNat ≤ 122) || (48 ≤ u.toNat && u.toNat ≤ 57) || u.toNat = 95 ||
    u.toNat = 45

/-- a value that is not a string is `none` -/
def decodeBase64Url (value : Option JsString) (maximum : ℕ) (allowEmpty : Bool) : Option (List UInt8) :=
  value.bind fun value =>
    if (!allowEmpty && value.length = 0) || (maximum * 4 + 2) / 3 < value.length || !value.all isUrlUnit ||
        value.length % 4 = 1 then none
    else
      let standard := replaceAll '_' '/' (replaceAll '-' '+' value)
      (atob (standard ++ List.replicate ((4 - standard.length % 4) % 4) padding)).bind fun decoded =>
        let bytes := decoded.map fun u => UInt8.ofNat u.toNat
        if maximum < bytes.length then none else if encodeBase64Url bytes ≠ some value then none else some bytes

/-! ## Writing -/

theorem fromBytes_bytes (b : List UInt8) : (fromBytes b).map (fun u => UInt8.ofNat u.toNat) = b := by
  rw [fromBytes, List.map_map]
  refine List.map_id'' ?_ b
  intro a
  have ha : a.toNat < UInt16.size := a.toNat_lt.trans (by decide)
  simp only [Function.comp_apply]
  rw [UInt16.toNat_ofNat_of_lt' ha]
  exact UInt8.ofNat_toNat

theorem btoa_fromBytes (b : List UInt8) : btoa (fromBytes b) = some (btoaBytes b) := by
  have hsmall : ¬ ((fromBytes b).any fun u => decide (255 < u.toNat)) = true := by
    rw [List.any_eq_true]
    rintro ⟨u, hu, hlarge⟩
    obtain ⟨a, _, rfl⟩ := List.mem_map.1 hu
    have ha : a.toNat < UInt16.size := a.toNat_lt.trans (by decide)
    rw [UInt16.toNat_ofNat_of_lt' ha, decide_eq_true_eq] at hlarge
    exact absurd a.toNat_lt (by omega)
  rw [btoa, if_neg hsmall, fromBytes_bytes]

/-- the standard form of a code unit of the URL alphabet -/
def toStandard (u : UInt16) : UInt16 :=
  (fun u => if u = unit '_' then unit '/' else u) ((fun u => if u = unit '-' then unit '+' else u) u)

/-- what the characters of the alphabet are for the Browser -/
structure Plain (c : Char) : Prop where
  url : isUrlUnit (unit c) = true
  ne : unit c ≠ padding
  small : c.toNat < 128
  utf8 : c.utf8Size = 1
  value : unitValue (toStandard (unit c)) = Base64Url.value c
  standard : toStandard (unit c) ≠ padding
  dense : isAsciiWhitespace (toStandard (unit c)) = false

theorem plain_of_mem {c : Char} (h : c ∈ Base64Url.alphabet) : Plain c := by
  have key : ∀ c ∈ Base64Url.alphabet, isUrlUnit (unit c) = true ∧ unit c ≠ padding ∧ c.toNat < 128 ∧ c.utf8Size = 1 ∧
      unitValue (toStandard (unit c)) = Base64Url.value c ∧ toStandard (unit c) ≠ padding ∧
      isAsciiWhitespace (toStandard (unit c)) = false := List.all_iff_forall_prop.1 (by decide +kernel)
  obtain ⟨h1, h2, h3, h4, h5, h6, h7⟩ := key c h
  exact ⟨h1, h2, h3, h4, h5, h6, h7⟩

theorem replaceAll_standard (s : JsString) : replaceAll '_' '/' (replaceAll '-' '+' s) = s.map toStandard := by
  rw [replaceAll, replaceAll, List.map_map]
  rfl

theorem replace_symbolUnit (n : ℕ) :
    (fun u => if u = unit '/' then unit '_' else u) ((fun u => if u = unit '+' then unit '-' else u) (symbolUnit n)) =
      unit (Base64Url.symbol n) := by
  have key : ∀ m : Fin 64, (fun u => if u = unit '/' then unit '_' else u)
      ((fun u => if u = unit '+' then unit '-' else u) (symbolUnit m)) = unit (Base64Url.symbol m) := by decide +kernel
  by_cases hn : n < 64
  · exact key ⟨n, hn⟩
  · have hstd : standardAlphabet.length ≤ n := by
      have : standardAlphabet.length = 64 := by decide +kernel
      omega
    have hurl : Base64Url.alphabet.length ≤ n := by
      have : Base64Url.alphabet.length = 64 := by decide +kernel
      omega
    rw [symbolUnit, Base64Url.symbol, List.getD_eq_getElem?_getD, List.getD_eq_getElem?_getD, List.getElem?_eq_none hstd,
      List.getElem?_eq_none hurl]
    decide

/-- how many padding characters `btoa` adds -/
def paddingCount (b : List UInt8) : ℕ := (3 - b.length % 3) % 3

theorem replace_btoaBytes (b : List UInt8) :
    replaceAll '/' '_' (replaceAll '+' '-' (btoaBytes b)) =
      (Base64Url.encode b).map unit ++ List.replicate (paddingCount b) padding := by
  have hpad : (fun u => if u = unit '/' then unit '_' else u) ((fun u => if u = unit '+' then unit '-' else u) padding) =
      padding := by decide
  rw [replaceAll, replaceAll, List.map_map]
  induction b using Base64Url.encode.induct with
  | case1 => rfl
  | case2 a => simp only [btoaBytes, Base64Url.encode, List.map_cons, List.map_nil, Function.comp_apply, replace_symbolUnit,
      hpad, paddingCount, List.length_singleton]; rfl
  | case3 a b => simp only [btoaBytes, Base64Url.encode, List.map_cons, List.map_nil, Function.comp_apply, replace_symbolUnit,
      hpad, paddingCount, List.length_cons, List.length_nil]; rfl
  | case4 a b c rest ih =>
    have hcount : paddingCount (a :: b :: c :: rest) = paddingCount rest := by
      simp only [paddingCount, List.length_cons]
      omega
    rw [hcount]
    simp only [btoaBytes, Base64Url.encode, List.map_cons, Function.comp_apply, replace_symbolUnit, List.cons_append, ih]

theorem rdropWhile_padding {s : JsString} (hs : ∀ u ∈ s, u ≠ padding) (k : ℕ) :
    (s ++ List.replicate k padding).rdropWhile (· = padding) = s := by
  induction k with
  | zero =>
    rw [List.replicate_zero, List.append_nil, List.rdropWhile_eq_self_iff]
    intro hne
    simpa using hs _ (List.getLast_mem hne)
  | succ k ih =>
    rw [List.replicate_succ', ← List.append_assoc, List.rdropWhile_concat_pos _ _ _ (by simp)]
    exact ih

theorem encodeBase64Url_units (b : List UInt8) : encodeBase64Url b = some ((Base64Url.encode b).map unit) := by
  rw [encodeBase64Url, btoa_fromBytes, Option.map_some, replace_btoaBytes, rdropWhile_padding]
  intro u hu
  obtain ⟨c, hc, rfl⟩ := List.mem_map.1 hu
  exact (plain_of_mem (Base64Url.encode_mem_alphabet b c hc)).ne

theorem utf16_ascii {t : Text} (h : ∀ c ∈ t, c.toNat < 128) : utf16 t = t.map unit := by
  induction t with
  | nil => rfl
  | cons c t ih =>
    have hc := h c List.mem_cons_self
    have hrest := ih fun d hd => h d (List.mem_cons_of_mem _ hd)
    rw [utf16, List.flatMap_cons, if_pos (by omega), ← utf16, hrest]
    rfl

theorem utf16_encode (b : List UInt8) : utf16 (Base64Url.encode b) = (Base64Url.encode b).map unit :=
  utf16_ascii fun c hc => (plain_of_mem (Base64Url.encode_mem_alphabet b c hc)).small

theorem encodeBase64Url_eq (b : List UInt8) : encodeBase64Url b = some (utf16 (Base64Url.encode b)) := by
  rw [encodeBase64Url_units, utf16_encode]

/-! ## Reading -/

theorem unitValue_of_value {c : Char} {p : ℕ} (h : Base64Url.value c = some p) : unitValue (toStandard (unit c)) = some p := by
  have hmem : c ∈ Base64Url.alphabet := by
    by_contra hout
    rw [Base64Url.value, List.idxOf?_eq_none_iff.2 hout] at h
    cases h
  rw [(plain_of_mem hmem).value, h]

/-- what the strict reading accepts, `atob` reads the same way -/
theorem atobBytes_of_decode {t : Text} {b : List UInt8} (h : Base64Url.decode t = some b) :
    atobBytes (replaceAll '_' '/' (replaceAll '-' '+' (t.map unit))) = some b := by
  rw [replaceAll_standard, List.map_map]
  induction t using Base64Url.decode.induct generalizing b with
  | case1 => exact h
  | case2 => cases h
  | case3 x y =>
    simp only [Base64Url.decode, Option.bind_eq_bind, Option.bind_eq_some_iff] at h
    obtain ⟨p, hp, q, hq, hlast⟩ := h
    split_ifs at hlast
    have h1 := unitValue_of_value hp
    have h2 := unitValue_of_value hq
    simp only [List.map_cons, List.map_nil, Function.comp_apply, atobBytes, h1, h2, Option.bind_eq_bind, Option.bind_some]
    exact hlast
  | case4 x y z =>
    simp only [Base64Url.decode, Option.bind_eq_bind, Option.bind_eq_some_iff] at h
    obtain ⟨p, hp, q, hq, r, hr, hlast⟩ := h
    split_ifs at hlast
    have h1 := unitValue_of_value hp
    have h2 := unitValue_of_value hq
    have h3 := unitValue_of_value hr
    simp only [List.map_cons, List.map_nil, Function.comp_apply, atobBytes, h1, h2, h3, Option.bind_eq_bind, Option.bind_some]
    exact hlast
  | case5 x y z w rest ih =>
    simp only [Base64Url.decode, Option.bind_eq_bind, Option.bind_eq_some_iff] at h
    obtain ⟨p, hp, q, hq, r, hr, u, hu, bytes, hbytes, hlast⟩ := h
    have h1 := unitValue_of_value hp
    have h2 := unitValue_of_value hq
    have h3 := unitValue_of_value hr
    have h4 := unitValue_of_value hu
    simp only [List.map_cons, Function.comp_apply, atobBytes, h1, h2, h3, h4, ih hbytes, Option.bind_eq_bind, Option.bind_some]
    exact hlast

theorem stripOne_of_ne {s : JsString} (hs : ∀ u ∈ s, u ≠ padding) : stripOne s = s := by
  refine if_neg ?_
  intro hlast
  exact hs padding (List.mem_of_getLast? hlast) rfl

/-- the padding the decoder adds is the padding `atob` takes off -/
theorem stripPadding_append {s : JsString} (hs : ∀ u ∈ s, u ≠ padding) (hlen : s.length % 4 ≠ 1) :
    stripPadding (s ++ List.replicate ((4 - s.length % 4) % 4) padding) = s := by
  have hcases : s.length % 4 = 0 ∨ s.length % 4 = 2 ∨ s.length % 4 = 3 := by omega
  rcases hcases with h | h | h
  · rw [h, Nat.sub_zero, Nat.mod_self, List.replicate_zero, List.append_nil]
    refine if_neg ?_
    rintro ⟨_, hlast⟩
    exact hs padding (List.mem_of_getLast? hlast) rfl
  · have htwo : s ++ List.replicate ((4 - s.length % 4) % 4) padding = (s ++ [padding]) ++ [padding] := by
      rw [h, List.append_assoc]
      rfl
    rw [htwo, stripPadding, if_pos, List.dropLast_concat, stripOne, if_pos, List.dropLast_concat]
    · exact List.getLast?_concat
    · refine ⟨?_, List.getLast?_concat⟩
      rw [List.length_append, List.length_append, List.length_singleton]
      omega
  · have hone : s ++ List.replicate ((4 - s.length % 4) % 4) padding = s ++ [padding] := by
      rw [h]
      rfl
    rw [hone, stripPadding, if_pos, List.dropLast_concat, stripOne_of_ne hs]
    refine ⟨?_, List.getLast?_concat⟩
    rw [List.length_append, List.length_singleton]
    omega

theorem standard_of_mem {t : Text} (ht : ∀ c ∈ t, c ∈ Base64Url.alphabet) :
    ∀ u ∈ replaceAll '_' '/' (replaceAll '-' '+' (t.map unit)), u ≠ padding ∧ isAsciiWhitespace u = false := by
  intro u hu
  rw [replaceAll_standard, List.map_map] at hu
  obtain ⟨c, hc, rfl⟩ := List.mem_map.1 hu
  have hplain := plain_of_mem (ht c hc)
  exact ⟨hplain.standard, hplain.dense⟩

theorem length_encode_mod (b : List UInt8) : (Base64Url.encode b).length % 4 ≠ 1 := by
  rw [Base64Url.length_encode]
  omega

theorem atob_encode (b : List UInt8) :
    atob (replaceAll '_' '/' (replaceAll '-' '+' ((Base64Url.encode b).map unit)) ++ List.replicate
      ((4 - (replaceAll '_' '/' (replaceAll '-' '+' ((Base64Url.encode b).map unit))).length % 4) % 4) padding) =
      some (fromBytes b) := by
  have hstandard := standard_of_mem (Base64Url.encode_mem_alphabet b)
  have hbytes := atobBytes_of_decode (Base64Url.decode_encode b)
  have hlength : (replaceAll '_' '/' (replaceAll '-' '+' ((Base64Url.encode b).map unit))).length =
      (Base64Url.encode b).length := by simp [replaceAll]
  have hmod := length_encode_mod b
  rw [← hlength] at hmod
  generalize replaceAll '_' '/' (replaceAll '-' '+' ((Base64Url.encode b).map unit)) = s at hstandard hbytes hmod ⊢
  have hfilter : (s ++ List.replicate ((4 - s.length % 4) % 4) padding).filter (fun u => !isAsciiWhitespace u) =
      s ++ List.replicate ((4 - s.length % 4) % 4) padding := by
    refine List.filter_eq_self.2 ?_
    intro u hu
    rcases List.mem_append.1 hu with hu | hu
    · rw [(hstandard u hu).2, Bool.not_false]
    · rw [List.eq_of_mem_replicate hu]
      decide
  rw [atob, hfilter, stripPadding_append (fun u hu => (hstandard u hu).1) hmod, hbytes, Option.map_some]

/-- **The Browser accepts exactly the canonical texts within the limit.** -/
theorem decodeBase64Url_eq_some_iff {value : Option JsString} {maximum : ℕ} {allowEmpty : Bool} {b : List UInt8} :
    decodeBase64Url value maximum allowEmpty = some b ↔
      value = some (utf16 (Base64Url.encode b)) ∧ b.length ≤ maximum ∧ (b = [] → allowEmpty = true) := by
  constructor
  · intro h
    obtain ⟨v, hv, hrest⟩ := Option.bind_eq_some_iff.1 h
    subst hv
    split_ifs at hrest with hcheck
    obtain ⟨decoded, _, hdecoded⟩ := Option.bind_eq_some_iff.1 hrest
    dsimp only at hdecoded
    split_ifs at hdecoded with hlong hcanonical
    rw [Option.some.injEq] at hdecoded
    rw [hdecoded] at hlong hcanonical
    have hvalue : utf16 (Base64Url.encode b) = v := by
      rw [encodeBase64Url_eq] at hcanonical
      exact Option.some.inj (not_not.1 hcanonical)
    refine ⟨congrArg some hvalue.symm, not_lt.1 hlong, ?_⟩
    intro hb
    subst hb
    by_contra hallow
    refine hcheck ?_
    rw [← hvalue]
    simpa [Base64Url.encode, utf16] using hallow
  · rintro ⟨rfl, hle, hempty⟩
    have hcheck : ¬ (!allowEmpty && decide ((utf16 (Base64Url.encode b)).length = 0) ||
        decide ((maximum * 4 + 2) / 3 < (utf16 (Base64Url.encode b)).length) || !(utf16 (Base64Url.encode b)).all isUrlUnit ||
        decide ((utf16 (Base64Url.encode b)).length % 4 = 1)) = true := by
      have hlength : (utf16 (Base64Url.encode b)).length = (4 * b.length + 2) / 3 := by
        rw [utf16_encode, List.length_map, Base64Url.length_encode]
      have hall : (utf16 (Base64Url.encode b)).all isUrlUnit = true := by
        rw [utf16_encode, List.all_eq_true]
        intro u hu
        obtain ⟨c, hc, rfl⟩ := List.mem_map.1 hu
        exact (plain_of_mem (Base64Url.encode_mem_alphabet b c hc)).url
      rw [hlength, hall]
      simp only [Bool.or_eq_true, Bool.and_eq_true, Bool.not_eq_true', decide_eq_true_eq, Bool.not_true, Bool.false_eq_true,
        or_false]
      rintro ((⟨hallow, hzero⟩ | hlong) | hmod)
      · have hb : b = [] := List.length_eq_zero_iff.1 (by omega)
        rw [hempty hb] at hallow
        cases hallow
      · omega
      · omega
    unfold decodeBase64Url
    rw [Option.bind_some, if_neg hcheck]
    dsimp only
    rw [utf16_encode, atob_encode, Option.bind_some, fromBytes_bytes, if_neg (not_lt.2 hle), ← utf16_encode,
      encodeBase64Url_eq, if_neg (not_not.2 rfl)]

theorem unit_inj {c d : Char} (hc : c.toNat < 0x10000) (hd : d.toNat < 0x10000) (h : unit c = unit d) : c = d := by
  have hnat := congrArg UInt16.toNat h
  rw [unit, unit, UInt16.toNat_ofNat_of_lt' hc, UInt16.toNat_ofNat_of_lt' hd] at hnat
  exact Char.toNat_inj.1 hnat

/-- a text whose code units are those of an ASCII text is that text -/
theorem eq_of_utf16_eq {t a : Text} (ha : ∀ c ∈ a, c.toNat < 128) (h : utf16 t = utf16 a) : t = a := by
  rw [utf16_ascii ha] at h
  induction t generalizing a with
  | nil =>
    cases a with
    | nil => rfl
    | cons d a => cases h
  | cons c t ih =>
    rw [utf16, List.flatMap_cons, ← utf16] at h
    cases a with
    | nil => split_ifs at h <;> cases h
    | cons d a =>
      have hd := ha d List.mem_cons_self
      have hrest := fun e he => ha e (List.mem_cons_of_mem _ he)
      rw [List.map_cons] at h
      split_ifs at h with hc
      · rw [List.singleton_append, List.cons.injEq] at h
        rw [unit_inj hc (by omega) h.1, ih hrest h.2]
      · -- a surrogate is not an ASCII character
        have hfirst := congrArg UInt16.toNat (List.cons.inj h).1
        have hvalid : c.toNat < 0x110000 := by
          have := c.valid
          simp only [UInt32.isValidChar, Nat.isValidChar] at this
          show c.val.toNat < 0x110000
          omega
        have hsize : 0xD800 + (c.toNat - 0x10000) / 0x400 < UInt16.size := by
          show _ < 65536
          omega
        have hsmall : d.toNat < UInt16.size := hd.trans (by decide)
        rw [unit, UInt16.toNat_ofNat_of_lt' hsize, UInt16.toNat_ofNat_of_lt' hsmall] at hfirst
        omega

end Js

/-- the reading of frames is this reading -/
theorem decodeBase64Url_contract (maximum : ℕ) (t : Text) :
    decodeBase64Url maximum (some (.string t)) = Js.decodeBase64Url (some (Js.utf16 t)) maximum true := by
  refine Option.ext ?_
  intro b
  rw [Js.decodeBase64Url_eq_some_iff, Option.some.injEq]
  constructor
  · intro h
    simp only [decodeBase64Url, guard, Option.bind_eq_bind, Option.bind_eq_some_iff, Option.pure_def] at h
    obtain ⟨_, _, bytes, _, _, hguard, hret⟩ := h
    cases hret
    split_ifs at hguard with hcheck
    rw [Bool.and_eq_true, decide_eq_true_eq, decide_eq_true_eq] at hcheck
    exact ⟨by rw [hcheck.2], hcheck.1, fun _ => rfl⟩
  · rintro ⟨hunits, hle, _⟩
    have hascii : ∀ c ∈ Base64Url.encode b, c.toNat < 128 :=
      fun c hc => (Js.plain_of_mem (Base64Url.encode_mem_alphabet b c hc)).small
    rw [Js.eq_of_utf16_eq hascii hunits]
    have hlen : (Base64Url.encode b).length ≤ (maximum * 4 + 2) / 3 := by
      rw [Base64Url.length_encode]
      omega
    simp [decodeBase64Url, hlen, hle]

/-! ## Both sides -/

theorem byteLen_encode (b : List UInt8) : byteLen (Base64Url.encode b) = (4 * b.length + 2) / 3 := by
  rw [Relay.byteLen_of_forall fun c hc => (Js.plain_of_mem (Base64Url.encode_mem_alphabet b c hc)).utf8,
    Base64Url.length_encode]

/-- `decode_input` accepts exactly the canonical texts of 1 to 1024 bytes. -/
theorem decodeInput_eq_some_iff {s : Text} {b : List UInt8} :
    decodeInput s = some b ↔ s = Base64Url.encode b ∧ 1 ≤ b.length ∧ b.length ≤ attachmentMaxInputBytes := by
  constructor
  · intro h
    unfold decodeInput at h
    split_ifs at h
    obtain ⟨bytes, _, hbytes⟩ := Option.bind_eq_some_iff.1 h
    split_ifs at hbytes with hcheck
    cases hbytes
    rw [not_or, not_or, not_not] at hcheck
    exact ⟨hcheck.2.2.symm, List.length_pos_iff.2 hcheck.1, not_lt.1 hcheck.2.1⟩
  · rintro ⟨rfl, hpos, hle⟩
    have hne : Base64Url.encode b ≠ [] := by
      intro hnil
      have hlength := Base64Url.length_encode b
      rw [hnil, List.length_nil] at hlength
      omega
    have hshort : ¬ (Base64Url.encode b = [] ∨ 1366 < byteLen (Base64Url.encode b)) := by
      rw [byteLen_encode, not_or]
      exact ⟨hne, by simp only [attachmentMaxInputBytes] at hle; omega⟩
    have hbytes : ¬ (b = [] ∨ attachmentMaxInputBytes < b.length ∨ Base64Url.encode b ≠ Base64Url.encode b) := by
      rintro (rfl | hlong | hne)
      · exact absurd hpos (by decide)
      · omega
      · exact hne rfl
    rw [decodeInput, if_neg hshort, Base64Url.decode_encode, Option.bind_some, if_neg hbytes]

/-- **The two codecs agree.** What the Browser writes for 1 to 1024 bytes the Server reads back, and it reads nothing else; what the
    Server writes for at most 16384 bytes the Browser reads back, and it reads nothing else. -/
theorem base64url_agree :
    (∀ b : List UInt8, 1 ≤ b.length → b.length ≤ attachmentMaxInputBytes →
      ∃ s, Js.encodeBase64Url b = some (Js.utf16 s) ∧ decodeInput s = some b) ∧
    (∀ (s : Text) (b : List UInt8), decodeInput s = some b →
      Js.encodeBase64Url b = some (Js.utf16 s) ∧ s = Base64Url.encode b ∧ 1 ≤ b.length ∧ b.length ≤ attachmentMaxInputBytes) ∧
    (∀ b : List UInt8, b.length ≤ attachmentMaxTerminalChunkBytes →
      Js.decodeBase64Url (some (Js.utf16 (Base64Url.encode b))) attachmentMaxTerminalChunkBytes true = some b) ∧
    (∀ (value : Option Js.JsString) (allowEmpty : Bool) (b : List UInt8),
      Js.decodeBase64Url value attachmentMaxTerminalChunkBytes allowEmpty = some b →
      value = some (Js.utf16 (Base64Url.encode b)) ∧ b.length ≤ attachmentMaxTerminalChunkBytes) := by
  refine ⟨?_, ?_, ?_, ?_⟩
  · intro b hpos hle
    exact ⟨Base64Url.encode b, Js.encodeBase64Url_eq b, decodeInput_eq_some_iff.2 ⟨rfl, hpos, hle⟩⟩
  · intro s b h
    obtain ⟨rfl, hpos, hle⟩ := decodeInput_eq_some_iff.1 h
    exact ⟨Js.encodeBase64Url_eq b, rfl, hpos, hle⟩
  · intro b hle
    exact Js.decodeBase64Url_eq_some_iff.2 ⟨rfl, hle, fun _ => rfl⟩
  · intro value allowEmpty b h
    obtain ⟨hvalue, hle, _⟩ := Js.decodeBase64Url_eq_some_iff.1 h
    exact ⟨hvalue, hle⟩

/-- one byte: `_w` both ways -/
theorem base64url_agree_one :
    (∃ s, Js.encodeBase64Url [255] = some (Js.utf16 s) ∧ decodeInput s = some [255]) ∧
    Js.decodeBase64Url (some (Js.utf16 (Base64Url.encode [255]))) attachmentMaxTerminalChunkBytes true = some [255] :=
  ⟨base64url_agree.1 [255] (by decide) (by decide), base64url_agree.2.2.1 [255] (by decide)⟩

end OwlMux.Browser
