import OrderLint.Check
import OrderLint.Yaml.Printer

/-!
# Settings of a check

Settings are known by the names that flags, variables and configuration files use. Printed, they
make up a configuration file.
-/
namespace OrderLint

structure Settings where
  verbose : Bool
  constructorFirst : Bool
  delimiter : Bytes
  extensions : List Bytes
  exclude : List Bytes
  jobs : Int64
  deriving DecidableEq

def defaultExtensions : List Bytes := [utf8 ".js", utf8 ".jsx", utf8 ".mjs", utf8 ".cjs"]

namespace Settings

def default (processors : Int64) : Settings where
  verbose := false
  constructorFirst := true
  delimiter := defaultDelimiter
  extensions := defaultExtensions
  exclude := [utf8 "**/node_modules/**"]
  jobs := processors

def options (settings : Settings) : Options := ⟨settings.delimiter, settings.constructorFirst⟩

def entries (settings : Settings) : List (Bytes × Yaml.Value) :=
  [(utf8 "verbose", .truth settings.verbose),
    (utf8 "constructor-first", .truth settings.constructorFirst),
    (utf8 "delimiter", .text settings.delimiter),
    (utf8 "ext", .list (settings.extensions.map .text)),
    (utf8 "exclude", .list (settings.exclude.map .text)),
    (utf8 "jobs", .integer settings.jobs.toInt)]

def print (settings : Settings) : Bytes := Yaml.printMap settings.entries

end Settings

end OrderLint
