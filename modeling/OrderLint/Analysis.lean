import OrderLint.Files.Tree
import OrderLint.JavaScript.Parse
import OrderLint.Log
import OrderLint.Settings

/-!
# Analyzing files

A file is read, parsed and checked. What goes wrong on the way is part of its result and does not
stop the other files; only a cancellation does, once a file has been read.
-/
namespace OrderLint

inductive AnalysisError where
  | unreadable (e : FileError)
  | malformed (e : JavaScript.SyntaxError)
  | unrecognized (path : Bytes) (e : UnrecognizedKind)
  deriving DecidableEq

namespace AnalysisError

def message : AnalysisError → Bytes
  | .unreadable e => e.message
  | .malformed e => e.message
  | .unrecognized path e => e.messageIn path

end AnalysisError

structure FileResult where
  path : Bytes
  violations : List Violation := []
  error : Option AnalysisError := none
  deriving DecidableEq

def analyze (options : Options) (path src : Bytes) : FileResult :=
  match JavaScript.parse path src with
  | .error e => ⟨path, [], some (.malformed e)⟩
  | .ok outline =>
    let findings := outline.check options
    ⟨path, findings.violations, findings.failure.map (.unrecognized path)⟩

def analyzeFile (options : Options) (tree : FileTree) (path : Bytes) : FileResult :=
  match tree.read path with
  | .error e => ⟨path, [], some (.unreadable e)⟩
  | .ok src => analyze options path src

structure Canceled where
  deriving DecidableEq

def Canceled.message : Bytes := utf8 "context canceled"

/-- The results of files, in their order. In a run that has been canceled beforehand a file that
can be read ends it. -/
def analyzeFiles (settings : Settings) (tree : FileTree) (canceled : Bool) (files : List Bytes) :
    Except Canceled (List FileResult) :=
  if canceled && files.any fun path => (tree.read path).isOk then .error {}
  else .ok (files.map (analyzeFile settings.options tree))

def analysisLog (files : List Bytes) : List LogRecord :=
  files.map (LogRecord.about (utf8 "processing file"))

end OrderLint
