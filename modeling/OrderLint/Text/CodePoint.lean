import OrderLint.Text.Bytes

/-!
# Code points in byte strings

A byte string is read as UTF-8 from left to right. A byte that does not begin a well-formed
sequence stands alone as an invalid piece, so the pieces of a string always make up the string.
-/
namespace OrderLint

def isContinuation (b : UInt8) : Bool := 0x80 ≤ b && b ≤ 0xBF

/-- The code point at the front of a byte string and the number of its bytes. Overlong forms,
surrogates and values above U+10FFFF do not count. -/
def decode? : Bytes → Option (Nat × Nat)
  | [] => none
  | a :: rest =>
    if a < 0x80 then some (a.toNat, 1)
    else if a < 0xC2 then none
    else if a < 0xE0 then
      match rest with
      | b :: _ =>
        if isContinuation b then some ((a.toNat - 0xC0) * 64 + (b.toNat - 0x80), 2) else none
      | _ => none
    else if a < 0xF0 then
      match rest with
      | b :: c :: _ =>
        let lowest : UInt8 := if a = 0xE0 then 0xA0 else 0x80
        let highest : UInt8 := if a = 0xED then 0x9F else 0xBF
        if lowest ≤ b && b ≤ highest && isContinuation c then
          some ((a.toNat - 0xE0) * 4096 + (b.toNat - 0x80) * 64 + (c.toNat - 0x80), 3)
        else none
      | _ => none
    else if a < 0xF5 then
      match rest with
      | b :: c :: d :: _ =>
        let lowest : UInt8 := if a = 0xF0 then 0x90 else 0x80
        let highest : UInt8 := if a = 0xF4 then 0x8F else 0xBF
        if lowest ≤ b && b ≤ highest && isContinuation c && isContinuation d then
          some ((a.toNat - 0xF0) * 262144 + (b.toNat - 0x80) * 4096 + (c.toNat - 0x80) * 64
            + (d.toNat - 0x80), 4)
        else none
      | _ => none
    else none

def encode (c : Nat) : Bytes :=
  if c < 0x80 then [c.toUInt8]
  else if c < 0x800 then [(0xC0 + c / 64).toUInt8, (0x80 + c % 64).toUInt8]
  else if c < 0x10000 then
    [(0xE0 + c / 4096).toUInt8, (0x80 + c / 64 % 64).toUInt8, (0x80 + c % 64).toUInt8]
  else
    [(0xF0 + c / 262144).toUInt8, (0x80 + c / 4096 % 64).toUInt8, (0x80 + c / 64 % 64).toUInt8,
      (0x80 + c % 64).toUInt8]

def replacement : Nat := 0xFFFD

inductive Piece where
  | char (code : Nat) (bytes : Bytes)
  | invalid (byte : UInt8)

namespace Piece

def bytes : Piece → Bytes
  | .char _ bytes => bytes
  | .invalid byte => [byte]

def code : Piece → Nat
  | .char code _ => code
  | .invalid _ => replacement

def isChar : Piece → Bool
  | .char _ _ => true
  | .invalid _ => false

end Piece

def firstPiece (b : UInt8) (rest : Bytes) : Piece :=
  match decode? (b :: rest) with
  | some (code, width) => .char code (b :: rest.take (width - 1))
  | none => .invalid b

def piecesUpTo : Nat → Bytes → List Piece
  | 0, _ => []
  | _ + 1, [] => []
  | limit + 1, b :: rest =>
    let piece := firstPiece b rest
    piece :: piecesUpTo limit (rest.drop (piece.bytes.length - 1))

def pieces (s : Bytes) : List Piece := piecesUpTo s.length s

def isUtf8 (s : Bytes) : Bool := (pieces s).all Piece.isChar

def isAscii (s : Bytes) : Bool := s.all (· < 0x80)

end OrderLint
