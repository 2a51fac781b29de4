import OrderLint.Text.CodePoint

/-!
# White space
-/
namespace OrderLint

def isWhiteSpace (c : Nat) : Bool :=
  (9 ≤ c && c ≤ 13) || c == 32 || c == 0x85 || c == 0xA0 || c == 0x1680
    || (0x2000 ≤ c && c ≤ 0x200A) || c == 0x2028 || c == 0x2029 || c == 0x202F || c == 0x205F
    || c == 0x3000

def wordsFrom (word : Bytes) : List Piece → List Bytes
  | [] => if word = [] then [] else [word]
  | piece :: rest =>
    if isWhiteSpace piece.code then
      if word = [] then wordsFrom [] rest else word :: wordsFrom [] rest
    else wordsFrom (word ++ piece.bytes) rest

def words (s : Bytes) : List Bytes := wordsFrom [] (pieces s)

end OrderLint
