/-!
# Reading UTF-8

A byte string is decoded code point by code point.  Decoding stops at the first
position where no well-formed sequence begins, and the fault says how many
bytes were good before it and how many bytes, at most, still agree with some
well-formed sequence.  When the text ends in the middle of a sequence, the
sequence is unfinished rather than malformed.  The lossy reading continues
after a fault and puts one replacement character for each such stretch.
-/

namespace Metastring.Utf8

/-- What the bytes at one position hold. -/
inductive Piece where
  /-- A code point, with the number of bytes that follow its first one. -/
  | scalar (char : Char) (extra : Nat)
  /-- Bytes that begin no well-formed sequence, with the number of bytes after
  the first that still agree with one. -/
  | malformed (extra : Nat)
  /-- The beginning of a sequence that the end of the text cuts off. -/
  | unfinished
deriving DecidableEq, Inhabited

/-- A byte that can only continue a sequence. -/
def continues (byte : UInt8) : Bool :=
  0x80 ≤ byte && byte ≤ 0xBF

/-- The six low bits of a continuation byte. -/
def tailBits (byte : UInt8) : Nat :=
  byte.toNat % 64

/-- The piece opened by the first byte of a two-byte sequence. -/
def pieceOfTwo (first : UInt8) : List UInt8 → Piece
  | [] => .unfinished
  | second :: _ =>
    if continues second then
      .scalar (Char.ofNat (first.toNat % 32 * 64 + tailBits second)) 1
    else .malformed 0

/-- The piece opened by the first byte of a three-byte sequence, whose second
byte lies between the given bounds. -/
def pieceOfThree (first low high : UInt8) : List UInt8 → Piece
  | [] => .unfinished
  | second :: rest =>
    if low ≤ second && second ≤ high then
      match rest with
      | [] => .unfinished
      | third :: _ =>
        if continues third then
          .scalar (Char.ofNat (first.toNat % 16 * 4096 +
            tailBits second * 64 + tailBits third)) 2
        else .malformed 1
    else .malformed 0

/-- The piece opened by the first byte of a four-byte sequence, whose second
byte lies between the given bounds. -/
def pieceOfFour (first low high : UInt8) : List UInt8 → Piece
  | [] => .unfinished
  | second :: rest =>
    if low ≤ second && second ≤ high then
      match rest with
      | [] => .unfinished
      | third :: rest =>
        if continues third then
          match rest with
          | [] => .unfinished
          | fourth :: _ =>
            if continues fourth then
              .scalar (Char.ofNat (first.toNat % 8 * 262144 +
                tailBits second * 4096 + tailBits third * 64 +
                tailBits fourth)) 3
            else .malformed 2
        else .malformed 1
    else .malformed 0

/-- The piece at a position.  The bounds on the second byte leave out overlong
forms, surrogates and everything beyond the last code point. -/
def pieceAt (first : UInt8) (rest : List UInt8) : Piece :=
  if first < 0x80 then .scalar (Char.ofNat first.toNat) 0
  else if first < 0xC2 then .malformed 0
  else if first < 0xE0 then pieceOfTwo first rest
  else if first = 0xE0 then pieceOfThree first 0xA0 0xBF rest
  else if first = 0xED then pieceOfThree first 0x80 0x9F rest
  else if first < 0xF0 then pieceOfThree first 0x80 0xBF rest
  else if first = 0xF0 then pieceOfFour first 0x90 0xBF rest
  else if first < 0xF4 then pieceOfFour first 0x80 0xBF rest
  else if first = 0xF4 then pieceOfFour first 0x80 0x8F rest
  else .malformed 0

/-- Why a byte string is not UTF-8; `index` counts the bytes before the fault. -/
inductive Fault where
  | malformed (length index : Nat)
  | unfinished (index : Nat)
deriving DecidableEq, Inhabited

/-- Decode the bytes from `index` on, after passing over `skip` bytes that
belong to the code point before them. -/
def decodeFrom (index skip : Nat) : List UInt8 → Except Fault (List Char)
  | [] => .ok []
  | first :: rest =>
    match skip with
    | skip + 1 => decodeFrom (index + 1) skip rest
    | 0 =>
      match pieceAt first rest with
      | .scalar char extra =>
        (decodeFrom (index + 1) extra rest).map (char :: ·)
      | .malformed extra => .error (.malformed (extra + 1) index)
      | .unfinished => .error (.unfinished index)

/-- Decode a byte string that has to be UTF-8 throughout. -/
def decode (bytes : List UInt8) : Except Fault String :=
  (decodeFrom 0 0 bytes).map String.ofList

/-- Decode the bytes with a replacement character for every faulty stretch,
after passing over `skip` bytes that are already accounted for. -/
def decodeLossyFrom (skip : Nat) : List UInt8 → List Char
  | [] => []
  | first :: rest =>
    match skip with
    | skip + 1 => decodeLossyFrom skip rest
    | 0 =>
      match pieceAt first rest with
      | .scalar char extra => char :: decodeLossyFrom extra rest
      | .malformed extra => '\uFFFD' :: decodeLossyFrom extra rest
      | .unfinished => ['\uFFFD']

/-- A byte string as it is shown to people. -/
def decodeLossy (bytes : List UInt8) : String :=
  String.ofList (decodeLossyFrom 0 bytes)

/-- The bytes of a text. -/
def encode (text : String) : List UInt8 :=
  text.toList.flatMap String.utf8EncodeChar

end Metastring.Utf8
