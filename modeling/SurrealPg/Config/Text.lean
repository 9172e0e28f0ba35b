import SurrealPg.Store.Session
import Mathlib.Algebra.Group.Int.Defs
import Mathlib.Algebra.Group.Nat.Defs

/-!
# Text

What the configuration does with text, following the standard library it is written against: where
a string is cut, which spellings of a number or a truth value are understood, and what
percent-decoding makes of the bytes of a value. A text is the list of its characters; its bytes
appear only where the source looks at them.
-/

namespace SurrealPg

/-- A string being taken apart. -/
abbrev Text := List Char

namespace Text

/-! ## Cutting -/

/-- `split_once`: the text before the first `c` and the text after it. -/
def splitOnce (c : Char) : Text → Option (Text × Text)
  | [] => none
  | x :: xs => if x = c then some ([], xs) else (splitOnce c xs).map fun p ↦ (x :: p.1, p.2)

/-- `strip_suffix` -/
def stripSuffix (suffix s : Text) : Option Text :=
  if suffix.isSuffixOf s then some (s.take (s.length - suffix.length)) else none

def asciiLowercase (s : Text) : Text := s.map Char.toLower

def asciiUppercase (s : Text) : Text := s.map Char.toUpper

/-! ## Numbers and truth values -/

/-- The value of a text of decimal digits. -/
def decimalValue (ds : Text) : ℕ := ds.foldl (fun n c ↦ 10 * n + (c.toNat - '0'.toNat)) 0

/-- A non-empty text of decimal digits. -/
def isDecimal (ds : Text) : Bool := !ds.isEmpty && ds.all Char.isDigit

/-- One leading plus sign is allowed. -/
def dropPlus : Text → Text
  | '+' :: ds => ds
  | ds => ds

/-- `parse` at an unsigned type whose largest value is `max`. -/
def parseUnsigned (max : ℕ) (s : Text) : Option ℕ :=
  if isDecimal (dropPlus s) ∧ decimalValue (dropPlus s) ≤ max then some (decimalValue (dropPlus s))
  else none

def parseU32 (s : Text) : Option ℕ := parseUnsigned (2 ^ 32 - 1) s

def parseU64 (s : Text) : Option ℕ := parseUnsigned (2 ^ 64 - 1) s

/-- `parse::<i32>` -/
def parseI32 : Text → Option ℤ
  | '-' :: ds =>
    if isDecimal ds ∧ decimalValue ds ≤ 2 ^ 31 then some (-(decimalValue ds : ℤ)) else none
  | s => (parseUnsigned (2 ^ 31 - 1) s).map Int.ofNat

/-- `parse_bool_param`, and the words of `env_bool` -/
def parseBoolParam (s : Text) : Option Bool :=
  let v := String.ofList s.asciiLowercase
  if v ∈ ["true", "1", "yes", "on"] then some true
  else if v ∈ ["false", "0", "no", "off"] then some false
  else none

/-! ## Durations -/

/-- `n.parse().ok().map(..)` -/
def scaled (n : Text) (seconds : ℕ) : Option Duration :=
  (parseU64 n).bind fun n ↦
    if n * seconds < 2 ^ 64 then some (.fromSecs (n * seconds)) else none

/-- Parse a duration string: `500ms`, `10s`, `5m`, `2h`, or bare secs; `checked_mul` refuses what
does not fit. -/
def parseDuration (v : Text) : Option Duration :=
  let v := trim v
  match stripSuffix ['m', 's'] v with
  | some n => (parseU64 n).map .fromMillis
  | none =>
    match stripSuffix ['s'] v with
    | some n => scaled n 1
    | none =>
      match stripSuffix ['m'] v with
      | some n => scaled n 60
      | none =>
        match stripSuffix ['h'] v with
        | some n => scaled n 3600
        | none => scaled v 1

/-! ## Percent-decoding -/

/-- `hex_digit` -/
def hexDigit (b : UInt8) : Option UInt8 :=
  let c := Char.ofNat b.toNat
  if c.isDigit then some (b - 48)
  else if 'a' ≤ c ∧ c ≤ 'f' then some (b - 97 + 10)
  else if 'A' ≤ c ∧ c ≤ 'F' then some (b - 65 + 10)
  else none

/-- The loop of `percent_decode` over the bytes: `+` is a space, `%XX` a byte; a `%` that two hex
digits do not follow is kept, with up to two bytes after it. -/
def percentBytes : List UInt8 → List UInt8
  | [] => []
  | b :: rest =>
    if b = 43 then 32 :: percentBytes rest
    else if b = 37 then
      match rest with
      | hi :: lo :: rest' =>
        match hexDigit hi, hexDigit lo with
        | some hv, some lv => (hv * 16 + lv) :: percentBytes rest'
        | _, _ => 37 :: hi :: lo :: percentBytes rest'
      | [c] => [37, c]
      | [] => [37]
    else b :: percentBytes rest

/-- Whether `b` may continue the sequence `lead` has begun, at the first place after it. -/
def mayFollow (lead b : UInt8) : Bool :=
  if lead = 0xE0 then 0xA0 ≤ b && b ≤ 0xBF
  else if lead = 0xED then 0x80 ≤ b && b ≤ 0x9F
  else if lead = 0xF0 then 0x90 ≤ b && b ≤ 0xBF
  else if lead = 0xF4 then 0x80 ≤ b && b ≤ 0x8F
  else 0x80 ≤ b && b ≤ 0xBF

/-- How many bytes the sequence begun by `lead` has. -/
def sequenceLength (lead : UInt8) : ℕ :=
  if lead < 0x80 then 1
  else if 0xC2 ≤ lead ∧ lead ≤ 0xDF then 2
  else if 0xE0 ≤ lead ∧ lead ≤ 0xEF then 3
  else if 0xF0 ≤ lead ∧ lead ≤ 0xF4 then 4
  else 0

/-- The longest beginning of `rest` that continues the sequence begun by `lead`. -/
def continuation (lead : UInt8) (rest : List UInt8) : List UInt8 :=
  match rest.take (sequenceLength lead - 1) with
  | [] => []
  | b :: bs =>
    if mayFollow lead b then b :: bs.takeWhile fun c ↦ 0x80 ≤ c && c ≤ 0xBF else []

/-- The character of a complete sequence. -/
def scalar (lead : UInt8) (rest : List UInt8) : Char :=
  let first := match sequenceLength lead with
    | 2 => lead.toNat % 32
    | 3 => lead.toNat % 16
    | 4 => lead.toNat % 8
    | _ => lead.toNat
  Char.ofNat (rest.foldl (fun n b ↦ n * 64 + b.toNat % 64) first)

/-- `String::from_utf8_lossy`, with `skip` bytes already decoded: a sequence that is broken off, or
a byte that begins none, becomes `U+FFFD`. -/
def fromUtf8Lossy : ℕ → List UInt8 → Text
  | _, [] => []
  | skip + 1, _ :: rest => fromUtf8Lossy skip rest
  | 0, lead :: rest =>
    let more := continuation lead rest
    let c := if more.length + 1 = sequenceLength lead then scalar lead more else '\uFFFD'
    c :: fromUtf8Lossy more.length rest

/-- Percent-decode a URL-encoded string. -/
def percentDecode (s : Text) : Text :=
  fromUtf8Lossy 0 (percentBytes (s.flatMap String.utf8EncodeChar))

end Text

end SurrealPg
