import Scangen.Text.Hidden
import Scangen.Text.Numeral

/-!
Text in double quotes. A backslash stands before the quote, before itself and before every code for a
character that is not written as it is.
-/

namespace Scangen.Text

/-- Which characters stand for themselves, and what is written for the others. -/
structure Escaping where
  /-- Characters with a letter of their own behind the backslash. -/
  letters : List (Char × Char)
  kept : Char → Bool
  /-- The code of any other character. -/
  code : Char → List Char

def Escaping.escape (e : Escaping) (c : Char) : List Char :=
  match e.letters.lookup c with
  | some letter => ['\\', letter]
  | none => if e.kept c then [c] else e.code c

def Escaping.escapeAll (e : Escaping) (text : List Char) : List Char := text.flatMap e.escape

def Escaping.quote (e : Escaping) (text : List Char) : List Char :=
  '"' :: e.escapeAll text ++ ['"']

def isPrintableAscii (c : Char) : Bool := 0x20 ≤ c.toNat && c.toNat ≤ 0x7E

/-- A reader sees the character as one of its own. -/
def isVisible (c : Char) : Bool :=
  if c.toNat < 0x80 then isPrintableAscii c else !isHidden c

/-- The number of a character in braces. -/
def bracedCode (c : Char) : List Char := "\\u\x7b".toList ++ Nat.toDigits 16 c.toNat ++ ['\x7d']

/-- Shows all that is visible. -/
def visible : Escaping where
  letters := [('\x00', '0'), ('\t', 't'), ('\r', 'r'), ('\n', 'n'), ('"', '"'), ('\\', '\\')]
  kept := isVisible
  code := bracedCode

/-- Keeps to ASCII, and escapes quotes of both kinds. -/
def ascii : Escaping where
  letters := [('\t', 't'), ('\r', 'r'), ('\n', 'n'), ('\'', '\''), ('"', '"'), ('\\', '\\')]
  kept := isPrintableAscii
  code := bracedCode

end Scangen.Text
