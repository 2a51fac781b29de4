import OrderLint.JavaScript.Lexical

/-!
# White space and comments

Comments may stand between any two tokens and become nodes of the tree. Lines that begin like
markup comments are skipped where a statement or an operand may begin, and leave no node.
-/
namespace OrderLint.JavaScript

def afterBlockComment? : Nat → Place → Option Place
  | 0, _ => none
  | limit + 1, p =>
    match p.rest with
    | [] | 0 :: _ => none
    | 42 :: 47 :: _ => some (p.skip 2)
    | _ => afterBlockComment? limit p.step

def afterComment? (p : Place) : Option Place :=
  if p.sees "//" then some ((p.skip 2).dropWhile fun c => !endsLineComment c)
  else if p.sees "/*" then afterBlockComment? p.rest.length (p.skip 2)
  else none

def afterMarkupComment? (p : Place) : Option Place :=
  if p.sees "<!--" || p.sees "-->" then some (p.dropWhile fun c => !isLineBreak c) else none

def skipTrivia (markup : Bool) : Nat → Place → Forest × Place
  | 0, p => ([], p)
  | limit + 1, p =>
    let p := p.dropWhile isBlank
    match afterComment? p with
    | some q =>
      let (comments, after) := skipTrivia markup limit q
      (Place.leaf "comment" true p q :: comments, after)
    | none =>
      match (if markup then afterMarkupComment? p else none) with
      | some q => skipTrivia markup limit q
      | none => ([], p)

def Place.trivia (markup : Bool) (p : Place) : Forest × Place :=
  skipTrivia markup (p.rest.length + 1) p

def Place.nextToken (p : Place) : Token := (p.trivia false).2.token

end OrderLint.JavaScript
