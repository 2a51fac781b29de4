import OrderLint.Files.Selection
import OrderLint.Report

/-!
# A check run

The files that the arguments stand for are analyzed and reported. Without arguments the standard
input is analyzed, as a file of a fixed name.
-/
namespace OrderLint

def inputName : Bytes := utf8 "stdin.js"

inductive RunError where
  | file (e : FileError)
  | verdict (v : Verdict)
  deriving DecidableEq

namespace RunError

def message : RunError → Bytes
  | .file e => e.message
  | .verdict v => v.message

end RunError

structure RunOutcome where
  output : Bytes := []
  log : List LogRecord := []
  error : Option RunError := none

def RunOutcome.ofResults (log : List LogRecord) (results : List FileResult) : RunOutcome :=
  let reported := report (results.map .ofResult)
  ⟨reported.output, log ++ reported.log, reported.verdict.map .verdict⟩

def runInput (settings : Settings) (input : Bytes) : RunOutcome :=
  .ofResults [.debug (utf8 "processing stdin") []] [analyze settings.options inputName input]

def runFiles (settings : Settings) (tree : FileTree) (arguments : List Bytes) : RunOutcome :=
  let selected := selectFiles settings tree arguments
  match selected.files with
  | .error e => { log := selected.log, error := some (.file e) }
  | .ok files =>
    .ofResults (selected.log ++ analysisLog files)
      (files.map (analyzeFile settings.options tree))

def run (settings : Settings) (tree : FileTree) (input : Bytes) (arguments : List Bytes) :
    RunOutcome :=
  if arguments = [] then runInput settings input else runFiles settings tree arguments

end OrderLint
