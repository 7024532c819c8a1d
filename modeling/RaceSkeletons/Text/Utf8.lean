/-!
# UTF-8

A file is a list of bytes; a text is what its bytes spell. The decoder is
a machine that reads one byte at a time and answers, in order, the
characters it completes and a mark for every sequence that cannot be
completed. Strict reading (`decode?`) refuses a file with such a mark, lossy
reading (`decodeLossy`) puts the replacement character in its place.

A broken sequence is as long as possible: it ends before the first byte
that no character could have at that place, and that byte is read afresh.
-/

namespace RaceSkeletons

abbrev Bytes := List UInt8

namespace Utf8

/-- What the decoder has seen of the current character. -/
inductive State where
  /-- Between two characters. -/
  | start
  /-- `need + 1` bytes are missing; the next lies between `low` and `high`. -/
  | within (need : Nat) (value : Nat) (low high : UInt8)
  deriving Repr, DecidableEq

/-- Starts a character at byte `b`. The bounds on the second byte leave out
overlong forms, surrogates and values beyond the last code point. -/
def lead (b : UInt8) : List (Option Char) × State :=
  if b < 0x80 then ([some (Char.ofNat b.toNat)], .start)
  else if 0xc2 ≤ b ∧ b ≤ 0xdf then ([], .within 0 (b.toNat - 0xc0) 0x80 0xbf)
  else if b = 0xe0 then ([], .within 1 0 0xa0 0xbf)
  else if b = 0xed then ([], .within 1 0xd 0x80 0x9f)
  else if 0xe1 ≤ b ∧ b ≤ 0xef then ([], .within 1 (b.toNat - 0xe0) 0x80 0xbf)
  else if b = 0xf0 then ([], .within 2 0 0x90 0xbf)
  else if 0xf1 ≤ b ∧ b ≤ 0xf3 then ([], .within 2 (b.toNat - 0xf0) 0x80 0xbf)
  else if b = 0xf4 then ([], .within 2 4 0x80 0x8f)
  else ([none], .start)

/-- Reads one byte: the characters (`some`) and broken sequences (`none`)
that end with it, and the state behind it. -/
def step : State → UInt8 → List (Option Char) × State
  | .start, b => lead b
  | .within need value low high, b =>
    if low ≤ b ∧ b ≤ high then
      let value := value * 64 + (b.toNat - 0x80)
      match need with
      | 0 => ([some (Char.ofNat value)], .start)
      | n + 1 => ([], .within n value 0x80 0xbf)
    else
      let (out, state) := lead b
      (none :: out, state)

/-- Reads the bytes from a state on. -/
def scan : State → Bytes → List (Option Char)
  | .start, [] => []
  | .within .., [] => [none]
  | state, b :: bs => (step state b).1 ++ scan (step state b).2 bs

/-- The text the bytes spell, if they are valid throughout. -/
def decode? (bytes : Bytes) : Option String :=
  ((scan .start bytes).mapM id).map String.ofList

/-- The text the bytes spell, with U+FFFD for each broken sequence. -/
def decodeLossy (bytes : Bytes) : String :=
  String.ofList ((scan .start bytes).map (·.getD '\uFFFD'))

/-- The bytes that spell a text. -/
def encode (s : String) : Bytes :=
  s.toList.flatMap String.utf8EncodeChar

end Utf8

end RaceSkeletons
