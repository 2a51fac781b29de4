import OrderLint.Text.CodePoint
import OrderLint.Text.LowerCase.Table

/-!
# Lower case

Names are compared in lower case. Each character is mapped on its own and to one character,
whatever stands around it. An ASCII string stays ASCII; in any other string an invalid byte turns
into the replacement character.
-/
namespace OrderLint

def lowerCode (c : Nat) : Nat :=
  if c < 0x80 then (if 65 ≤ c ∧ c ≤ 90 then c + 32 else c)
  else match LowerCase.table.find? fun (first, last, step, _) =>
      first ≤ c && c ≤ last && (c - first) % step == 0 with
    | some (first, _, _, image) => image + (c - first)
    | none => c

def lowerByte (b : UInt8) : UInt8 := if 65 ≤ b && b ≤ 90 then b + 32 else b

def lower (s : Bytes) : Bytes :=
  if isAscii s then s.map lowerByte
  else (pieces s).flatMap fun piece => encode (lowerCode piece.code)

end OrderLint
