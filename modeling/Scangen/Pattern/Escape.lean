import Scangen.Pattern.Error
import Scangen.Text.Numeral

/-!
Escape sequences in patterns, read one character at a time after the backslash.
-/

namespace Scangen

/-- How far an escape sequence has been read. -/
inductive Escape where
  | start
  /-- After `x`: two hexadecimal digits follow. -/
  | byteCode (digits : List Char)
  /-- Right after `u`. -/
  | codePoint
  /-- After `u`: four hexadecimal digits in all. -/
  | fourDigits (digits : List Char)
  /-- Between the braces after `u`. -/
  | braced (digits : List Char)
deriving DecidableEq

namespace Escape

/-- The code point with this number, which has to be one that a character can have. -/
def codePointValue (digits : List Char) : Except PatternError Nat :=
  match (Text.readWord 16 digits).filter fun n => decide (n.isValidChar) with
  | some n => .ok n
  | none => .error (.badEscape ('u' :: digits))

/-- The rest of the sequence after one more character, or the symbol it stands for. -/
def next : Escape → Char → Except PatternError (Escape ⊕ Nat)
  | start, 'n' => .ok (.inr 0x0A)
  | start, 'a' => .ok (.inr 0x07)
  | start, 'f' => .ok (.inr 0x0C)
  | start, 't' => .ok (.inr 0x09)
  | start, 'r' => .ok (.inr 0x0D)
  | start, 'v' => .ok (.inr 0x0B)
  | start, '0' => .ok (.inr 0)
  | start, 'x' => .ok (.inl (byteCode []))
  | start, 'u' => .ok (.inl codePoint)
  | start, c => .ok (.inr c.toNat)
  | byteCode [], c => .ok (.inl (byteCode [c]))
  | byteCode digits, c =>
    match Text.readWord 16 (digits ++ [c]) with
    | some n => .ok (.inr n)
    | none => .error (.badEscape ('x' :: (digits ++ [c])))
  | codePoint, '{' => .ok (.inl (braced []))
  | codePoint, c => .ok (.inl (fourDigits [c]))
  | fourDigits digits, c =>
    if digits.length < 3 then .ok (.inl (fourDigits (digits ++ [c])))
    else (codePointValue (digits ++ [c])).map .inr
  | braced digits, '}' => (codePointValue digits).map .inr
  | braced digits, c => .ok (.inl (braced (digits ++ [c])))

end Escape

end Scangen
