import OrderLint.Text.Bytes

/-!
# Log records

A run leaves records of what it does. Only warnings and errors are shown, unless it is verbose.
-/
namespace OrderLint

inductive Level where
  | debug
  | info
  | warn
  | error
  deriving DecidableEq

namespace Level

def number : Level → Int64
  | .debug => -4
  | .info => 0
  | .warn => 4
  | .error => 8

def name : Level → Bytes
  | .debug => utf8 "DEBUG"
  | .info => utf8 "INFO"
  | .warn => utf8 "WARN"
  | .error => utf8 "ERROR"

end Level

def threshold (verbose : Bool) : Level := if verbose then .debug else .warn

def isShown (verbose : Bool) (level : Int64) : Bool := (threshold verbose).number ≤ level

structure LogRecord where
  level : Level
  message : Bytes
  attributes : List (Bytes × Bytes) := []
  deriving DecidableEq

namespace LogRecord

def debug (message : Bytes) (attributes : List (Bytes × Bytes)) : LogRecord :=
  ⟨.debug, message, attributes⟩

def error (message : Bytes) (attributes : List (Bytes × Bytes)) : LogRecord :=
  ⟨.error, message, attributes⟩

def about (message path : Bytes) : LogRecord := debug message [(utf8 "path", path)]

end LogRecord

def shown (verbose : Bool) (records : List LogRecord) : List LogRecord :=
  records.filter fun record => isShown verbose record.level.number

end OrderLint
