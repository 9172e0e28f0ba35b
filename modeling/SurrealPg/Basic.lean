import Mathlib.Data.List.Lex
import Mathlib.Order.Defs.LinearOrder

/-!
# Keys, values and durations

Keys and values are byte strings, compared as Rust compares `Vec<u8>` and PostgreSQL compares
`bytea`: lexicographically by unsigned bytes, a proper prefix being smaller.
-/

namespace SurrealPg

/-- Bytes are ordered by their value, as in the order `List UInt8` inherits. -/
instance instLinearOrderUInt8 : LinearOrder UInt8 where
  le_refl _ := UInt8.le_refl _
  le_trans _ _ _ := UInt8.le_trans
  le_antisymm _ _ := UInt8.le_antisymm
  le_total := UInt8.le_total
  lt_iff_le_not_ge a b := by
    rw [UInt8.lt_iff_toNat_lt, UInt8.le_iff_toNat_le, UInt8.le_iff_toNat_le]
    omega
  toDecidableLE := inferInstance
  toDecidableEq := inferInstance
  toDecidableLT := inferInstance

abbrev Key := List UInt8

abbrev Val := List UInt8

/-- A `std::time::Duration`, as its number of nanoseconds. -/
structure Duration where
  nanos : ℕ
  deriving DecidableEq

namespace Duration

def fromSecs (n : ℕ) : Duration := ⟨n * 1000000000⟩

def fromMillis (n : ℕ) : Duration := ⟨n * 1000000⟩

def isZero (d : Duration) : Bool := d.nanos == 0

def asSecs (d : Duration) : ℕ := d.nanos / 1000000000

def subsecNanos (d : Duration) : ℕ := d.nanos % 1000000000

def subsecMillis (d : Duration) : ℕ := d.subsecNanos / 1000000

def asMillis (d : Duration) : ℕ := d.nanos / 1000000

/-- The digits of `frac` below `scale`, a power of ten, without trailing zeros. -/
private def fracDigits (frac scale : ℕ) : List Char :=
  ((toString (frac + scale)).toList.drop 1).reverse.dropWhile (· = '0') |>.reverse

private def decimal (whole frac scale : ℕ) (unit : String) : String :=
  match fracDigits frac scale with
  | [] => toString whole ++ unit
  | ds => toString whole ++ "." ++ String.ofList ds ++ unit

/-- The `Debug` text, in the largest unit that leaves a whole part. -/
def debug (d : Duration) : String :=
  if 0 < d.asSecs then decimal d.asSecs d.subsecNanos 1000000000 "s"
  else if 1000000 ≤ d.nanos then decimal (d.nanos / 1000000) (d.nanos % 1000000) 1000000 "ms"
  else if 1000 ≤ d.nanos then decimal (d.nanos / 1000) (d.nanos % 1000) 1000 "µs"
  else decimal d.nanos 0 1 "ns"

end Duration

end SurrealPg
