import OrderLint.Text.Printable.Table

/-!
# Printable characters

The characters that a quoted string shows as they are: the space, and the letters, marks, numbers,
punctuation and symbols of every script.
-/
namespace OrderLint

def isPrintable (c : Nat) : Bool :=
  if c < 0x80 then 32 ≤ c && c < 127
  else Printable.table.any fun (first, last) => first ≤ c && c ≤ last

end OrderLint
