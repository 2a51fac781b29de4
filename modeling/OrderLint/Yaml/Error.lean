import OrderLint.Text.Decimal
import OrderLint.Text.Quoted

/-!
# What can be wrong with a YAML text

A text is refused because it cannot be read as characters, because a token or a node is malformed,
or because its nodes do not make up a configuration. Each cause has one wording; a malformed token
or node is reported with the number of a line, unless that is the first.
-/
namespace OrderLint.Yaml

structure Mark where
  index : Nat := 0
  line : Nat := 0
  column : Nat := 0
  deriving DecidableEq

inductive Garble where
  | leadingByte
  | incomplete
  | trailingByte
  | overlong
  | surrogate
  | control
  deriving DecidableEq

def Garble.reason : Garble → Bytes
  | .leadingByte => utf8 "invalid leading UTF-8 octet"
  | .incomplete => utf8 "incomplete UTF-8 octet sequence"
  | .trailingByte => utf8 "invalid trailing UTF-8 octet"
  | .overlong => utf8 "invalid length of a UTF-8 sequence"
  | .surrogate => utf8 "invalid Unicode character"
  | .control => utf8 "control characters are not allowed"

inductive TokenFault where
  | noToken
  | noColon
  | entryNotAllowed
  | keyNotAllowed
  | valueNotAllowed
  | documentInQuotes
  | endInQuotes
  | unknownEscape
  | notHexadecimal
  | invalidEscape
  | tabInPlain
  | tabInBlock
  | zeroIndentation
  | noLineEnd
  | anchorName
  | tagOpen
  | tagClose
  | tagUri
  | tagEnd
  | uriEscape
  | uriLeading
  | uriTrailing
  | directiveName
  | directiveCharacter
  | directiveUnknown
  | versionDot
  | versionDigit
  | versionLong
  | tagSpace
  | tagLineEnd
  deriving DecidableEq

def TokenFault.reason : TokenFault → Bytes
  | .noToken => utf8 "found character that cannot start any token"
  | .noColon => utf8 "could not find expected ':'"
  | .entryNotAllowed => utf8 "block sequence entries are not allowed in this context"
  | .keyNotAllowed => utf8 "mapping keys are not allowed in this context"
  | .valueNotAllowed => utf8 "mapping values are not allowed in this context"
  | .documentInQuotes => utf8 "found unexpected document indicator"
  | .endInQuotes => utf8 "found unexpected end of stream"
  | .unknownEscape => utf8 "found unknown escape character"
  | .notHexadecimal => utf8 "did not find expected hexdecimal number"
  | .invalidEscape => utf8 "found invalid Unicode character escape code"
  | .tabInPlain => utf8 "found a tab character that violates indentation"
  | .tabInBlock => utf8 "found a tab character where an indentation space is expected"
  | .zeroIndentation => utf8 "found an indentation indicator equal to 0"
  | .noLineEnd => utf8 "did not find expected comment or line break"
  | .anchorName => utf8 "did not find expected alphabetic or numeric character"
  | .tagOpen => utf8 "did not find expected '!'"
  | .tagClose => utf8 "did not find the expected '>'"
  | .tagUri => utf8 "did not find expected tag URI"
  | .tagEnd => utf8 "did not find expected whitespace or line break"
  | .uriEscape => utf8 "did not find URI escaped octet"
  | .uriLeading => utf8 "found an incorrect leading UTF-8 octet"
  | .uriTrailing => utf8 "found an incorrect trailing UTF-8 octet"
  | .directiveName => utf8 "could not find expected directive name"
  | .directiveCharacter => utf8 "found unexpected non-alphabetical character"
  | .directiveUnknown => utf8 "found unknown directive name"
  | .versionDot => utf8 "did not find expected digit or '.' character"
  | .versionDigit => utf8 "did not find expected version number"
  | .versionLong => utf8 "found extremely long version number"
  | .tagSpace => utf8 "did not find expected whitespace"
  | .tagLineEnd => utf8 "did not find expected whitespace or line break"

inductive NodeFault where
  | noContent
  | noEntry
  | noKey
  | noListEnd
  | noMapEnd
  | noDocumentStart
  | undefinedHandle
  | repeatedVersion
  | wrongVersion
  | repeatedHandle
  deriving DecidableEq

def NodeFault.reason : NodeFault → Bytes
  | .noContent => utf8 "did not find expected node content"
  | .noEntry => utf8 "did not find expected '-' indicator"
  | .noKey => utf8 "did not find expected key"
  | .noListEnd => utf8 "did not find expected ',' or ']'"
  | .noMapEnd => utf8 "did not find expected ',' or '\x7d'"
  | .noDocumentStart => utf8 "did not find expected <document start>"
  | .undefinedHandle => utf8 "found undefined tag handle"
  | .repeatedVersion => utf8 "found duplicate %YAML directive"
  | .wrongVersion => utf8 "found incompatible YAML document"
  | .repeatedHandle => utf8 "found duplicate %TAG directive"

inductive Mismatch where
  | repeatedKey (line : Nat) (key : Bytes) (firstLine : Nat)
  | wrongKind (line : Nat) (found expected : Bytes)
  deriving DecidableEq

def Mismatch.message : Mismatch → Bytes
  | .repeatedKey line key firstLine =>
    utf8 "line " ++ decimalNat line ++ utf8 ": mapping key " ++ quoted key
      ++ utf8 " already defined at line " ++ decimalNat firstLine
  | .wrongKind line found expected =>
    utf8 "line " ++ decimalNat line ++ utf8 ": cannot unmarshal " ++ found ++ utf8 " into "
      ++ expected

inductive Error where
  | unreadable (garble : Garble)
  | token (context place : Mark) (fault : TokenFault)
  | node (context place : Mark) (fault : NodeFault)
  | unknownAnchor (name : Bytes)
  | selfReference (name : Bytes)
  | undecodable (found text wanted : Bytes)
  | badBase64
  | mergeOfNonMap
  | keyNotScalar (key : Bytes)
  | mismatched (mismatches : List Mismatch)
  deriving DecidableEq

namespace Error

def reportedLine (context place : Mark) : Nat :=
  if context.line ≠ 0 then context.line else place.line

def located (line : Nat) (reason : Bytes) : Bytes :=
  if line = 0 then reason else utf8 "line " ++ decimalNat line ++ utf8 ": " ++ reason

/-- The wording, without what it is about. Lines of tokens are counted from one, those of nodes by
the lines before them. -/
def reason : Error → Bytes
  | .unreadable garble => garble.reason
  | .token context place fault =>
    let line := reportedLine context place
    located (if line = 0 then 0 else line + 1) fault.reason
  | .node context place fault => located (reportedLine context place) fault.reason
  | .unknownAnchor name => utf8 "unknown anchor '" ++ name ++ utf8 "' referenced"
  | .selfReference name => utf8 "anchor '" ++ name ++ utf8 "' value contains itself"
  | .undecodable found text wanted =>
    utf8 "cannot decode " ++ found ++ utf8 " \x60" ++ text ++ utf8 "\x60 as a " ++ wanted
  | .badBase64 => utf8 "!!binary value contains invalid base64 data"
  | .mergeOfNonMap => utf8 "map merge requires map or sequence of maps as the value"
  | .keyNotScalar key => utf8 "invalid map key: " ++ key
  | .mismatched mismatches =>
    utf8 "unmarshal errors:\n  " ++ Bytes.joined (utf8 "\n  ") (mismatches.map (·.message))

def message (e : Error) : Bytes := utf8 "yaml: " ++ e.reason

end Error

end OrderLint.Yaml
