import OrderLint.Text.CodePoint
import OrderLint.Text.Printable

/-!
# Quoted strings

Messages show a string between double quotes, with escapes for the quote, the backslash, control
characters, invalid bytes and whatever is not printable. A single character is shown between
apostrophes by the same rules.
-/
namespace OrderLint

def hexDigit (n : Nat) : UInt8 := (if n < 10 then 48 + n else 87 + n).toUInt8

def hexDigits : Nat → Nat → Bytes
  | 0, _ => []
  | width + 1, n => hexDigits width (n / 16) ++ [hexDigit (n % 16)]

namespace Quoted

def shortEscape? : Nat → Option UInt8
  | 7 => some 97
  | 8 => some 98
  | 9 => some 116
  | 10 => some 110
  | 11 => some 118
  | 12 => some 102
  | 13 => some 114
  | _ => none

def char (mark code : Nat) : Bytes :=
  if code = mark ∨ code = 92 then 92 :: encode code
  else if isPrintable code then encode code
  else match shortEscape? code with
    | some letter => [92, letter]
    | none =>
      if code < 0x80 then utf8 "\\x" ++ hexDigits 2 code
      else if code < 0x10000 then utf8 "\\u" ++ hexDigits 4 code
      else utf8 "\\U" ++ hexDigits 8 code

def piece : Piece → Bytes
  | .char code _ => char 34 code
  | .invalid byte => utf8 "\\x" ++ hexDigits 2 byte.toNat

end Quoted

def quoted (s : Bytes) : Bytes := 34 :: (pieces s).flatMap Quoted.piece ++ [34]

def quotedChar (code : Nat) : Bytes := 39 :: Quoted.char 39 code ++ [39]

end OrderLint
