/-!
# Formats

A format is the type of a value in an operation graph: an IEEE binary number, a machine integer, a
fixed-point number, a vector of lanes in memory, a SIMD register, a vector of logic bits or a
table of values.
-/

namespace Retarget

/-- SIMD register layouts of the x86 family. Several of them share one C type. -/
inductive Register where
  | m128v1float32
  | m128v4float32
  | m128v1float64
  | m128v2float64
  | m128v1int32
  | m128v4int32
  | m128v1int64
  | m128v2int64
  | m256v8float32
  | m256v4float64
  | m256v8int32
  | m256v4int64
deriving DecidableEq, Repr, Inhabited

/-- The type of a value. -/
inductive Format where
  | void
  | bool
  | binary16
  | binary32
  | binary64
  | int (signed : Bool) (bits : Nat)
  | fixed (signed : Bool) (whole fraction : Nat)
  | vector (element : Format) (lanes : Nat)
  | register (layout : Register)
  | logic (width : Nat)
  | table (storage : Format) (size : Nat)
deriving DecidableEq, Repr, Inhabited

namespace Format

abbrev int32 : Format := .int true 32

abbrev int64 : Format := .int true 64

abbrev uint32 : Format := .int false 32

abbrev uint64 : Format := .int false 64

end Format

namespace Register

/-- All register layouts, narrow ones first. -/
def all : List Register :=
  [.m128v1float32, .m128v4float32, .m128v1float64, .m128v2float64, .m128v1int32, .m128v4int32,
    .m128v1int64, .m128v2int64, .m256v8float32, .m256v4float64, .m256v8int32, .m256v4int64]

/-- The name in the textual graph format. -/
def name : Register → String
  | .m128v1float32 => "m128_v1float32"
  | .m128v4float32 => "m128_v4float32"
  | .m128v1float64 => "m128_v1float64"
  | .m128v2float64 => "m128_v2float64"
  | .m128v1int32 => "m128_v1int32"
  | .m128v4int32 => "m128_v4int32"
  | .m128v1int64 => "m128_v1int64"
  | .m128v2int64 => "m128_v2int64"
  | .m256v8float32 => "m256_v8float32"
  | .m256v4float64 => "m256_v4float64"
  | .m256v8int32 => "m256_v8int32"
  | .m256v4int64 => "m256_v4int64"

/-- The C type of the register. -/
def cName : Register → String
  | .m128v1float32 | .m128v4float32 => "__m128"
  | .m128v1float64 | .m128v2float64 => "__m128d"
  | .m128v1int32 | .m128v4int32 | .m128v1int64 | .m128v2int64 => "__m128i"
  | .m256v8float32 => "__m256"
  | .m256v4float64 => "__m256d"
  | .m256v8int32 | .m256v4int64 => "__m256i"

/-- The width of the register in bits. -/
def width : Register → Nat
  | .m256v8float32 | .m256v4float64 | .m256v8int32 | .m256v4int64 => 256
  | _ => 128

/-- The number of lanes that carry a value. -/
def lanes : Register → Nat
  | .m128v1float32 | .m128v1float64 | .m128v1int32 | .m128v1int64 => 1
  | .m128v2float64 | .m128v2int64 => 2
  | .m128v4float32 | .m128v4int32 | .m256v4float64 | .m256v4int64 => 4
  | .m256v8float32 | .m256v8int32 => 8

/-- The format of one lane. -/
def element : Register → Format
  | .m128v1float32 | .m128v4float32 | .m256v8float32 => .binary32
  | .m128v1float64 | .m128v2float64 | .m256v4float64 => .binary64
  | .m128v1int32 | .m128v4int32 | .m256v8int32 => .int32
  | .m128v1int64 | .m128v2int64 | .m256v4int64 => .int64

end Register

namespace Format

/-- Whether the format is an IEEE binary format. -/
def isFloat : Format → Bool
  | .binary16 | .binary32 | .binary64 => true
  | _ => false

def isInteger : Format → Bool
  | .int _ _ => true
  | _ => false

def isFixed : Format → Bool
  | .fixed _ _ _ => true
  | _ => false

/-- Whether values of the format have lanes, in memory or in a register. -/
def isVector : Format → Bool
  | .vector _ _ | .register _ => true
  | _ => false

def isTable : Format → Bool
  | .table _ _ => true
  | _ => false

/-- Storage width in bits, as a number of thirty-two bits; zero for no value and for tables. -/
def width : Format → Nat
  | .void | .table _ _ => 0
  | .bool => 1
  | .binary16 => 16
  | .binary32 => 32
  | .binary64 => 64
  | .int _ bits => bits
  | .fixed _ whole fraction => whole + fraction
  | .vector element lanes => element.width * lanes % UInt32.size
  | .register layout => layout.width
  | .logic width => width

/-- Width of the explicit significand field of an IEEE format. -/
def fieldWidth? : Format → Option Nat
  | .binary16 => some 10
  | .binary32 => some 23
  | .binary64 => some 52
  | _ => none

/-- The number of fractional bits of a fixed-point format or an integer. -/
def fractionWidth? : Format → Option Nat
  | .fixed _ _ fraction => some fraction
  | .int _ _ => some 0
  | _ => none

end Format

end Retarget
