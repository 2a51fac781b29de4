import OrderLint.Analysis.Pool
import OrderLint.Main
import OrderLint.Proofs.Recognition
import OrderLint.Proofs.ClassOrder
import OrderLint.Proofs.ImportOrder
import OrderLint.Proofs.Sortedness
import OrderLint.Proofs.Truncation
import OrderLint.Proofs.Provenance
import OrderLint.Proofs.Leniency
import OrderLint.Proofs.Locality
import OrderLint.Proofs.Renumbering
import OrderLint.Proofs.Schedule
import OrderLint.Proofs.TreeWalk
import OrderLint.Proofs.Layout
import OrderLint.Proofs.ParsedKinds
import OrderLint.Proofs.Verdict
import OrderLint.Proofs.Arrangement
import OrderLint.Proofs.Records
import OrderLint.Proofs.Numerals
import OrderLint.Proofs.GivenFlags
import OrderLint.Proofs.Precedence
import OrderLint.Proofs.Reload
import OrderLint.Proofs.CursorCalls
import OrderLint.Proofs.SectionLines
import OrderLint.Proofs.Selection
import OrderLint.Proofs.Narrowing
import OrderLint.Proofs.Exclusion
import OrderLint.Proofs.Addresses
import OrderLint.Proofs.Diagnostics
import OrderLint.Proofs.ListSettings
import OrderLint.Proofs.LiteralReading
import OrderLint.Proofs.StringLiterals
import OrderLint.Proofs.BadNodes
