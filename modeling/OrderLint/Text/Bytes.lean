/-!
# Byte strings

Paths, file contents, names and messages are finite sequences of bytes, compared bytewise. They
need not be valid UTF-8, so they are lists of bytes and not texts.
-/
namespace OrderLint

abbrev Bytes := List UInt8

def utf8 (text : String) : Bytes := text.toUTF8.data.toList

namespace Bytes

def startsWith (s head : Bytes) : Bool := head.isPrefixOf s

def endsWith (s tail : Bytes) : Bool := tail.isSuffixOf s

def dropHead (s head : Bytes) : Bytes := if s.startsWith head then s.drop head.length else s

def dropTail (s tail : Bytes) : Bytes :=
  if s.endsWith tail then s.take (s.length - tail.length) else s

def splitAt (separator : UInt8) : Bytes → List Bytes
  | [] => [[]]
  | b :: rest =>
    if b = separator then [] :: splitAt separator rest
    else match splitAt separator rest with
      | [] => [[b]]
      | piece :: pieces => (b :: piece) :: pieces

def joined (separator : Bytes) : List Bytes → Bytes
  | [] => []
  | [last] => last
  | part :: parts => part ++ separator ++ joined separator parts

def slice (s : Bytes) (first last : Nat) : Bytes := (s.drop first).take (last - first)

end Bytes

def isAsciiSpace (b : UInt8) : Bool := b == 32 || (9 ≤ b && b ≤ 13)

def isAsciiDigit (b : UInt8) : Bool := 48 ≤ b && b ≤ 57

def isAsciiLetter (b : UInt8) : Bool := (65 ≤ b && b ≤ 90) || (97 ≤ b && b ≤ 122)

def hexValue? (b : UInt8) : Option Nat :=
  if isAsciiDigit b then some (b.toNat - 48)
  else if 97 ≤ b && b ≤ 102 then some (b.toNat - 87)
  else if 65 ≤ b && b ≤ 70 then some (b.toNat - 55)
  else none

def isHexDigit (b : UInt8) : Bool := (hexValue? b).isSome

end OrderLint
