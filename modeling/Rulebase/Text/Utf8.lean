/-!
# Reading UTF-8 leniently

Bytes are decoded into characters one sequence at a time. A byte that starts no sequence, and the
longest start of a sequence that breaks off, each give one replacement character, and reading goes on
at the next byte. Line ends are then brought to a single line feed.
-/

namespace Rulebase.Text

/-- What stands for bytes that are not UTF-8. -/
def replacement : Char := Char.ofNat 0xFFFD

/-- The number of continuation bytes a first byte asks for, with the bounds of the first of them and
the bits the first byte adds; nothing when it starts no sequence of several bytes. -/
def sequenceStart? (byte : Nat) : Option (Nat × Nat × Nat × Nat) :=
  if byte < 0xC2 then none
  else if byte < 0xE0 then some (1, 0x80, 0xBF, byte - 0xC0)
  else if byte = 0xE0 then some (2, 0xA0, 0xBF, 0)
  else if byte = 0xED then some (2, 0x80, 0x9F, 0xD)
  else if byte < 0xF0 then some (2, 0x80, 0xBF, byte - 0xE0)
  else if byte = 0xF0 then some (3, 0x90, 0xBF, 0)
  else if byte < 0xF4 then some (3, 0x80, 0xBF, byte - 0xF0)
  else if byte = 0xF4 then some (3, 0x80, 0x8F, 4)
  else none

/-- Where the reader stands between bytes: between characters, or with some continuation bytes owed,
the bounds of the next one and the bits read so far. -/
inductive Utf8State where
  | start
  | inside (owed low high bits : Nat)
  deriving DecidableEq, Repr

/-- The characters and the state after a byte that stands between characters. -/
def beginUtf8 (byte : Nat) : List Char × Utf8State :=
  if byte < 0x80 then ([Char.ofNat byte], .start)
  else match sequenceStart? byte with
    | none => ([replacement], .start)
    | some (owed, low, high, bits) => ([], .inside owed low high bits)

/-- The characters and the state after one more byte. -/
def stepUtf8 (state : Utf8State) (byte : Nat) : List Char × Utf8State :=
  match state with
  | .start => beginUtf8 byte
  | .inside owed low high bits =>
    if low ≤ byte ∧ byte ≤ high then
      let bits := bits * 64 + byte % 64
      if owed ≤ 1 then ([Char.ofNat bits], .start) else ([], .inside (owed - 1) 0x80 0xBF bits)
    else
      let (cs, state) := beginUtf8 byte
      (replacement :: cs, state)

def readUtf8 : Utf8State → List Nat → List Char
  | .start, [] => []
  | .inside .., [] => [replacement]
  | state, byte :: bytes => (stepUtf8 state byte).1 ++ readUtf8 (stepUtf8 state byte).2 bytes

def decodeUtf8 (bytes : List UInt8) : List Char :=
  readUtf8 .start (bytes.map UInt8.toNat)

/-- The characters with every line end, of either kind, brought to a line feed. -/
def unifyLineEnds : List Char → List Char
  | [] => []
  | '\r' :: '\n' :: cs => '\n' :: unifyLineEnds cs
  | '\r' :: cs => '\n' :: unifyLineEnds cs
  | c :: cs => c :: unifyLineEnds cs

end Rulebase.Text
