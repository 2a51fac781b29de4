import OrderLint.Sections.Cursor
import OrderLint.Violation

/-!
# The order of class members

The methods and properties of a class body ascend by name inside each section. One pass over the
members with one cursor over the section lines decides it: a member starts a new run when a section
line lies between it and the member before. Bodies are independent of each other.
-/
namespace OrderLint

namespace Member

def isConstructor (member : Member) : Bool :=
  member.kind = .method && member.name = utf8 "constructor"

def sortKey (member : Member) : Except UnrecognizedKind Bytes :=
  match member.kind with
  | .unrecognized _ => .error (.ofMember member)
  | _ => .ok member.name

end Member

structure ClassChecker where
  sections : SectionMap
  constructorFirst : Bool := true

namespace ClassChecker

def outOfOrder (last : Option Bytes) (key : Bytes) (member : Member) : List Violation :=
  match last with
  | some before => if key < before then [⟨.sortClassBody, .member member⟩] else []
  | none => []

/-- What follows a member with key `key`: the key to compare the next member with, none when a
section line lies between the two, and the cursor. -/
def nextRun (cursor : SectionCursor) (member : Member) (key : Bytes) :
    List Member → Option Bytes × SectionCursor
  | [] => (some key, cursor)
  | next :: _ =>
    let (opened, cursor) := cursor.between member.span.finish.line next.span.start.line
    (if opened then none else some key, cursor)

def checkMembers (cursor : SectionCursor) (last : Option Bytes) : List Member → Findings
  | [] => {}
  | member :: rest =>
    let cursor := cursor.seek member.span.start.line
    match member.sortKey with
    | .error e => ⟨[], some e⟩
    | .ok key =>
      let (last', cursor) := nextRun cursor member key rest
      Findings.andThen ⟨outOfOrder last key member, none⟩ (checkMembers cursor last' rest)

def compared (checker : ClassChecker) : List Member → List Member
  | [] => []
  | first :: rest =>
    if checker.constructorFirst && first.isConstructor then rest else first :: rest

def check (checker : ClassChecker) (body : ClassBody) : Findings :=
  checkMembers (checker.sections.cursor body.span.start.line) none (checker.compared body.members)

end ClassChecker

end OrderLint
