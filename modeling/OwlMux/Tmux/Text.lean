/-
The text functions of the standard library that the control-mode parser uses: `str::from_utf8`, `split`, `splitn`,
`split_whitespace`, `strip_prefix`, the integer parsers and `char::is_control`.

A string is the list of its characters; a byte string is a list of bytes. Everything here computes on closed terms.
-/
import Mathlib.Tactic
import OwlMux.Relay.Protocol
import OwlMux.Tmux.Escape

namespace OwlMux.Tmux

open OwlMux.Relay (Text)

/-! ## UTF-8 -/

def isContinuation (b : UInt8) : Bool := 0x80 ≤ b && b < 0xC0

/-- the character of a scalar value -/
def scalar (n : ℕ) : Option Char := if h : n.isValidChar then some (Char.ofNatAux n h) else none

/-- two, three and four bytes; longer forms than needed, surrogates and values above 0x10FFFF are refused -/
def decode2 (a b : UInt8) : Option Char :=
  if isContinuation b then scalar ((a.toNat % 32) * 64 + b.toNat % 64) else none

def decode3 (a b c : UInt8) : Option Char :=
  let n := (a.toNat % 16) * 4096 + (b.toNat % 64) * 64 + c.toNat % 64
  if isContinuation b && isContinuation c && 0x800 ≤ n then scalar n else none

def decode4 (a b c d : UInt8) : Option Char :=
  let n := (a.toNat % 8) * 262144 + (b.toNat % 64) * 4096 + (c.toNat % 64) * 64 + d.toNat % 64
  if isContinuation b && isContinuation c && isContinuation d && 0x10000 ≤ n then scalar n else none

/-- `std::str::from_utf8` -/
def fromUtf8 : Bytes → Option Text
  | [] => some []
  | a :: rest =>
    if a < 0x80 then do return Char.ofNat a.toNat :: (← fromUtf8 rest)
    else if 0xC2 ≤ a && a < 0xE0 then
      match rest with
      | b :: rest => do return (← decode2 a b) :: (← fromUtf8 rest)
      | _ => none
    else if 0xE0 ≤ a && a < 0xF0 then
      match rest with
      | b :: c :: rest => do return (← decode3 a b c) :: (← fromUtf8 rest)
      | _ => none
    else if 0xF0 ≤ a && a < 0xF5 then
      match rest with
      | b :: c :: d :: rest => do return (← decode4 a b c d) :: (← fromUtf8 rest)
      | _ => none
    else none

/-- the bytes of an ASCII literal of the source -/
def ascii (s : String) : Bytes := s.toList.map fun c => UInt8.ofNat c.toNat

/-! ## Prefixes, suffixes and fields -/

/-- `strip_prefix` -/
def stripHead {α : Type} [DecidableEq α] : List α → List α → Option (List α)
  | [], v => some v
  | p :: ps, b :: v => if p = b then stripHead ps v else none
  | _ :: _, [] => none

def newline : UInt8 := 10

/-- `line.strip_suffix(b"\n").unwrap_or(line)` -/
def stripNewline (line : Bytes) : Bytes := if line.getLast? = some newline then line.dropLast else line

/-- `split(separator)` -/
def splitChar (sep : Char) : Text → List Text
  | [] => [[]]
  | c :: t =>
    if c = sep then [] :: splitChar sep t
    else
      match splitChar sep t with
      | [] => [[c]]
      | f :: fs => (c :: f) :: fs

/-- `splitn(n, separator)`: at most `n` fields, the last with the rest -/
def splitn (sep : Char) : ℕ → Text → List Text
  | 0, _ => []
  | 1, t => [t]
  | _ + 2, [] => [[]]
  | n + 2, c :: t =>
    if c = sep then [] :: splitn sep (n + 1) t
    else
      match splitn sep (n + 2) t with
      | [] => [[c]]
      | f :: fs => (c :: f) :: fs

/-- `char::is_whitespace` -/
def isWhitespace (c : Char) : Bool :=
  let n := c.toNat
  (9 ≤ n && n ≤ 13) || n == 0x20 || n == 0x85 || n == 0xA0 || n == 0x1680 || (0x2000 ≤ n && n ≤ 0x200A) || n == 0x2028 ||
    n == 0x2029 || n == 0x202F || n == 0x205F || n == 0x3000

/-- the fields between white space, with the one being read -/
def splitWhitespaceFrom (field : Text) : Text → List Text
  | [] => if field.isEmpty then [] else [field]
  | c :: t =>
    if isWhitespace c then
      if field.isEmpty then splitWhitespaceFrom [] t else field :: splitWhitespaceFrom [] t
    else splitWhitespaceFrom (field ++ [c]) t

/-- `split_whitespace` -/
def splitWhitespace (t : Text) : List Text := splitWhitespaceFrom [] t

/-- `char::is_control`: the category Cc -/
def isControl (c : Char) : Bool := c.toNat < 0x20 || (0x7F ≤ c.toNat && c.toNat < 0xA0)

/-! ## Integers -/

def isDigit (c : Char) : Bool := '0' ≤ c && c ≤ '9'

def digitsValue (t : Text) : ℕ := t.foldl (fun n c => n * 10 + (c.toNat - 48)) 0

/-- digits alone, at least one -/
def parseDigits (t : Text) : Option ℕ := if !t.isEmpty && t.all isDigit then some (digitsValue t) else none

/-- `parse` of an unsigned type with the given number of values: an optional `+`, digits, no overflow -/
def parseUnsigned (size : ℕ) (t : Text) : Option ℕ := do
  let n ← parseDigits (match t with | '+' :: t => t | t => t)
  if n < size then some n else none

/-- `parse::<i64>` -/
def parseI64 (t : Text) : Option ℤ :=
  match t with
  | '-' :: t => do
    let n ← parseDigits t
    if n ≤ 2 ^ 63 then some (-(n : ℤ)) else none
  | t => do
    let n ← parseUnsigned (2 ^ 63) t
    some n

/-- `is_numeric_id`: the mark and one to thirty digits -/
def isNumericId (mark : Char) (t : Text) : Bool :=
  match t with
  | c :: digits => c == mark && !digits.isEmpty && digits.length ≤ 30 && digits.all isDigit
  | [] => false

def isSessionId (t : Text) : Bool := isNumericId '$' t
def isWindowId (t : Text) : Bool := isNumericId '@' t
def isPaneId (t : Text) : Bool := isNumericId '%' t

end OwlMux.Tmux
