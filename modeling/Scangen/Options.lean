import Scangen.Symbol.Charset

/-!
Options of the generator as the user sets them, and the configuration they resolve to.
-/

namespace Scangen

structure Options where
  /-- Join symbols that no rule tells apart. -/
  classes : Bool
  unicode : Bool
  caseAgnostic : Bool
  minimize : Bool
  /-- Store the class map as shared pages. -/
  compressMap : Bool
  /-- Store each state as its most frequent successor and the exceptions. -/
  compressNext : Bool
  /-- Join equal columns as well. -/
  squeeze : Bool
deriving DecidableEq

namespace Options

/-- The options whose bits are set, from the lowest bit on; further bits mean nothing. -/
def ofBits (bits : Nat) : Options :=
  ⟨bits.testBit 0, bits.testBit 1, bits.testBit 2, bits.testBit 3, bits.testBit 4, bits.testBit 5,
    bits.testBit 6⟩

def bits (o : Options) : Nat :=
  o.classes.toNat + 2 * o.unicode.toNat + 4 * o.caseAgnostic.toNat + 8 * o.minimize.toNat +
    16 * o.compressMap.toNat + 32 * o.compressNext.toNat + 64 * o.squeeze.toNat

def defaults (unicode : Bool) : Options :=
  { classes := unicode, unicode, caseAgnostic := false, minimize := true, compressMap := unicode,
    compressNext := true, squeeze := false }

end Options

inductive Compression where
  | dense
  | rows
  | squeezed
deriving DecidableEq

/-- How tables are laid out. -/
structure Layout where
  compression : Compression
  compressMap : Bool
deriving DecidableEq

structure Config where
  charset : Charset
  classes : Bool
  minimize : Bool
  layout : Layout
deriving DecidableEq

inductive OptionsError where
  /-- One class for each code point would be too many. -/
  | unicodeWithoutClasses
deriving DecidableEq

def OptionsError.message : OptionsError → String
  | unicodeWithoutClasses => "the unicode alphabet requires character classes"

/-- The strongest compression that is asked for is used. -/
def Options.resolve (o : Options) : Except OptionsError Config :=
  if o.unicode && !o.classes then .error .unicodeWithoutClasses
  else
    .ok {
      charset := ⟨if o.unicode then .unicode else .byte, o.caseAgnostic⟩
      classes := o.classes
      minimize := o.minimize
      layout := {
        compression :=
          if o.squeeze then .squeezed else if o.compressNext then .rows else .dense
        compressMap := o.compressMap } }

theorem Options.ofBits_bits (o : Options) : ofBits o.bits = o := by
  obtain ⟨a, b, c, d, e, f, g⟩ := o
  revert a b c d e f g
  decide

end Scangen
