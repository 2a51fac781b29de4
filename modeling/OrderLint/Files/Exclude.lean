import OrderLint.Files.Glob
import OrderLint.Files.Path

/-!
# Excluded paths

A path is excluded when a pattern matches its clean form, or the clean form with a slash after it,
so that a pattern for all that is in a directory also takes the directory itself.
-/
namespace OrderLint

def isExcluded (patterns : List Bytes) (path : Bytes) : Bool :=
  let path := Path.clean path
  patterns.any fun pattern =>
    Glob.isMatch pattern path || Glob.isMatch pattern (path ++ [Path.separator])

end OrderLint
