import OrderLint.Analysis

/-!
# Reports

One line for each violation, `path:line:column: message (rule)`, in the order of the results; a
record for each file that could not be checked; and a verdict on the whole run.
-/
namespace OrderLint

structure ReportEntry where
  path : Bytes
  violations : List Violation
  failure : Option Bytes

structure Verdict where
  violations : Nat
  failures : Nat
  deriving DecidableEq

def Verdict.message (v : Verdict) : Bytes :=
  let counted := decimalNat v.violations ++ utf8 " ordering violations"
  if v.failures = 0 then counted
  else counted ++ utf8 ", " ++ decimalNat v.failures ++ utf8 " files could not be checked"

structure Report where
  output : Bytes
  log : List LogRecord
  verdict : Option Verdict

namespace ReportEntry

def ofResult (result : FileResult) : ReportEntry :=
  ⟨result.path, result.violations, result.error.map (·.message)⟩

def line (path : Bytes) (violation : Violation) : Bytes :=
  path ++ utf8 ":" ++ violation.text ++ utf8 "\n"

def lines (entry : ReportEntry) : Bytes := entry.violations.flatMap (line entry.path)

def failureLog (entry : ReportEntry) : List LogRecord :=
  match entry.failure with
  | none => []
  | some text =>
    [.error (utf8 "analysis failed") [(utf8 "path", entry.path), (utf8 "err", text)]]

end ReportEntry

def tally (entries : List ReportEntry) : Verdict :=
  ⟨(entries.flatMap fun entry => entry.violations).length,
    (entries.filter fun entry => entry.failure.isSome).length⟩

def doneLog (entries : List ReportEntry) (counts : Verdict) : LogRecord :=
  .debug (utf8 "done") [(utf8 "files", decimalNat entries.length),
    (utf8 "violations", decimalNat counts.violations),
    (utf8 "failures", decimalNat counts.failures)]

def report (entries : List ReportEntry) : Report :=
  let counts := tally entries
  { output := entries.flatMap (·.lines)
    log := entries.flatMap (·.failureLog) ++ [doneLog entries counts]
    verdict := if counts = ⟨0, 0⟩ then none else some counts }

end OrderLint
