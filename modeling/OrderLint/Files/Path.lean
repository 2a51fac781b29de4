import OrderLint.Text.LowerCase

/-!
# Paths

A path is a byte string whose components are separated by slashes. Cleaning a path removes empty
and single-dot components and resolves a double dot against the component before it.
-/
namespace OrderLint.Path

def separator : UInt8 := 47

def isRooted (path : Bytes) : Bool := path.head? == some separator

/-- Adds a component to cleaned ones, which are held in reverse order. -/
def push (rooted : Bool) (cleaned : List Bytes) (component : Bytes) : List Bytes :=
  if component = [] ∨ component = utf8 "." then cleaned
  else if component = utf8 ".." then
    match cleaned with
    | [] => if rooted then [] else [component]
    | last :: rest => if last = utf8 ".." then component :: cleaned else rest
  else component :: cleaned

def components (path : Bytes) : List Bytes :=
  ((path.splitAt separator).foldl (push (isRooted path)) []).reverse

def clean (path : Bytes) : Bytes :=
  let joined := Bytes.joined [separator] (components path)
  if isRooted path then separator :: joined
  else if joined = [] then utf8 "."
  else joined

def join (directory name : Bytes) : Bytes :=
  if directory = [] then clean name else clean (directory ++ separator :: name)

def extension (path : Bytes) : Bytes :=
  let last := ((path.splitAt separator).getLast?).getD []
  match last.reverse.span (· != 46) with
  | (tail, _ :: _) => 46 :: tail.reverse
  | (_, []) => []

def hasExtension (path : Bytes) (extensions : List Bytes) : Bool :=
  let found := lower (extension path)
  extensions.any fun e => lower e == found

end OrderLint.Path
