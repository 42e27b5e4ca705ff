import SqlInterchange.Text

/-! # UTF-8

A byte string is read as a sequence of pieces: characters, and malformed stretches of bytes. A
sequence of bytes is given up at the first byte that cannot continue it, and that byte starts the
next piece; bytes owed at the end make one last malformed stretch. Strict reading stops at the
first malformed stretch, lenient reading writes the replacement character for each. -/
namespace SqlInterchange.Utf8

/-- What is wrong with a malformed stretch. -/
inductive Reason where
  /-- The byte starts no sequence. -/
  | invalidStart
  /-- The byte after the stretch does not continue it. -/
  | invalidContinuation
  /-- The bytes end before the sequence does. -/
  | truncated
deriving DecidableEq

/-- A piece of a byte string. -/
inductive Piece where
  /-- The bytes of one character. -/
  | char (c : Char)
  /-- Bytes that are no character: the first one, how many, and why. -/
  | malformed (first : UInt8) (length : Nat) (reason : Reason)
deriving DecidableEq

/-- A sequence that has begun and is not complete. -/
structure Sequence where
  /-- Its first byte. -/
  lead : UInt8
  /-- How many bytes it has. -/
  taken : Nat
  /-- How many bytes must still come, one of them next. -/
  owed : Nat
  /-- The least byte that may come next. -/
  low : UInt8
  /-- The greatest byte that may come next. -/
  high : UInt8
  /-- The number that the bytes so far contribute. -/
  payload : Nat

/-- What a byte starts: a character of its own, a sequence, or nothing. The range for the second
byte keeps out sequences that are too long, surrogates, and numbers above `U+10FFFF`. -/
def start (b : UInt8) : Piece ⊕ Sequence :=
  if b < 0x80 then .inl (.char (Char.ofNat b.toNat))
  else if b < 0xC2 then .inl (.malformed b 1 .invalidStart)
  else if b < 0xE0 then .inr ⟨b, 1, 1, 0x80, 0xBF, b.toNat % 32⟩
  else if b < 0xF0 then
    .inr ⟨b, 1, 2, if b = 0xE0 then 0xA0 else 0x80, if b = 0xED then 0x9F else 0xBF, b.toNat % 16⟩
  else if b < 0xF5 then
    .inr ⟨b, 1, 3, if b = 0xF0 then 0x90 else 0x80, if b = 0xF4 then 0x8F else 0xBF, b.toNat % 8⟩
  else .inl (.malformed b 1 .invalidStart)

/-- A sequence with one more byte: complete, or still owing bytes. -/
def Sequence.push (q : Sequence) (b : UInt8) : Piece ⊕ Sequence :=
  let payload := q.payload * 64 + b.toNat % 64
  if q.owed ≤ 1 then .inl (.char (Char.ofNat payload))
  else .inr ⟨q.lead, q.taken + 1, q.owed - 1, 0x80, 0xBF, payload⟩

/-- The pieces of a byte string, `open?` being the sequence that has begun before it. -/
def piecesFrom (open? : Option Sequence) : List UInt8 → List Piece
  | [] =>
    match open? with
    | none => []
    | some q => [.malformed q.lead q.taken .truncated]
  | b :: bs =>
    match open? with
    | none =>
      match start b with
      | .inl p => p :: piecesFrom none bs
      | .inr q => piecesFrom (some q) bs
    | some q =>
      if q.low ≤ b && b ≤ q.high then
        match q.push b with
        | .inl p => p :: piecesFrom none bs
        | .inr q => piecesFrom (some q) bs
      else
        .malformed q.lead q.taken .invalidContinuation ::
          match start b with
          | .inl p => p :: piecesFrom none bs
          | .inr q => piecesFrom (some q) bs

/-- The pieces of a byte string. -/
def pieces (bs : List UInt8) : List Piece := piecesFrom none bs

/-- The place and the kind of the first malformed stretch. -/
structure Fault where
  /-- How many bytes stand before it. -/
  position : Nat
  /-- Its first byte. -/
  first : UInt8
  /-- How many bytes it has. -/
  length : Nat
  /-- What is wrong with it. -/
  reason : Reason
deriving DecidableEq

/-- The text that the pieces stand for, if none of them is malformed; `position` bytes stand
before them. -/
def textOf (position : Nat) : List Piece → Except Fault Text
  | [] => .ok []
  | .char c :: ps => (textOf (position + c.utf8Size) ps).map (c :: ·)
  | .malformed first length reason :: _ => .error ⟨position, first, length, reason⟩

/-- Strict reading: a text, or the first fault. -/
def decode (bs : List UInt8) : Except Fault Text := textOf 0 (pieces bs)

/-- Lenient reading: the replacement character stands for each malformed stretch. -/
def decodeLenient (bs : List UInt8) : Text :=
  (pieces bs).map fun
    | .char c => c
    | .malformed .. => '\ufffd'

/-- The bytes of a character. -/
def encodeChar (c : Char) : List UInt8 := String.utf8EncodeChar c

/-- The bytes of a text. -/
def encode (t : Text) : List UInt8 := t.flatMap encodeChar

end SqlInterchange.Utf8
