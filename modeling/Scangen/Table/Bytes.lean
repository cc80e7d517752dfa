/-!
Numbers as bytes, the least significant one first, and reading them back.
-/

namespace Scangen

inductive TableError where
  | badMagic
  | truncated
  /-- A value that no table can have; the text says where. -/
  | invalid (place : String)
deriving DecidableEq

def TableError.message : TableError → String
  | badMagic => "not a table file (bad magic)"
  | truncated => "table data ends early"
  | invalid place => "malformed table: " ++ place

namespace Bytes

/-- The number that stands for a missing value. -/
def missing : Nat := 0xFFFFFFFF

/-- A number in 32 bits. -/
def word (n : Nat) : List UInt8 :=
  [UInt8.ofNat n, UInt8.ofNat (n / 0x100), UInt8.ofNat (n / 0x10000),
    UInt8.ofNat (n / 0x1000000)]

def optional (value : Option Nat) : List UInt8 := word (value.getD missing)

/-- Words behind their number. -/
def vector (words : List Nat) : List UInt8 := word words.length ++ words.flatMap word

end Bytes

/-- Takes a value from the front of some bytes. -/
abbrev Decoder (α : Type) := StateT (List UInt8) (Except TableError) α

namespace Decoder

def byte : Decoder UInt8 := fun bytes =>
  match bytes with
  | [] => .error .truncated
  | b :: rest => .ok (b, rest)

def word : Decoder Nat := fun bytes =>
  match bytes with
  | a :: b :: c :: d :: rest =>
    .ok (a.toNat + b.toNat * 0x100 + c.toNat * 0x10000 + d.toNat * 0x1000000, rest)
  | _ => .error .truncated

/-- A missing value is stored as the greatest word. -/
def absent (n : Nat) : Option Nat := if n = Bytes.missing then none else some n

def optional : Decoder (Option Nat) := do
  let n ← word
  pure (absent n)

/-- The same item `count` times, behind those that have been read. -/
def repeated {α : Type} (item : Decoder α) : Nat → Array α → Decoder (Array α)
  | 0, items => fun bytes => .ok (items, bytes)
  | count + 1, items => fun bytes =>
    match item bytes with
    | .error e => .error e
    | .ok (value, rest) => repeated item count (items.push value) rest

/-- Words behind their number. -/
def vector : Decoder (Array Nat) := do
  let count ← word
  repeated word count #[]

end Decoder

end Scangen
