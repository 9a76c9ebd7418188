import Rulebase.Text.Split

/-!
# Paths

A path is named by its parts with slashes between them. Empty parts and dots say nothing and are left
out; a path of nothing else is the current directory.
-/

namespace Rulebase.CommandLine

open Text

def isStep (part : List Char) : Bool :=
  part != [] && part != ['.']

/-- The root a path starts from: none, one slash, or exactly two, which may mean something else. -/
def rootOf (cs : List Char) : List Char :=
  match (cs.takeWhile (· = '/')).length with
  | 0 => []
  | 2 => ['/', '/']
  | _ => ['/']

def shortPath (path : String) : String :=
  let cs := path.toList
  let short := rootOf cs ++ join '/' ((split '/' cs).filter isStep)
  if short = [] then "." else String.ofList short

end Rulebase.CommandLine
