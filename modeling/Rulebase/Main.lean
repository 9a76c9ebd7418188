import Rulebase.CommandLine.Answer

/-!
# The program

Reads the policy file, writes the answer to the standard output and the log to the standard error.
-/

namespace Rulebase.CommandLine

def usage : String :=
  "usage: wherecp [-h] [--tokens] [--summary] [-v] [--version] policy query"

/-- The system's code for reading a directory; otherwise the path goes on behind a file. -/
def directoryCode : UInt32 := 21

def look (path : String) : IO Place := do
  try
    return .file (← IO.FS.readBinFile path).toList
  catch
    | .noFileOrDirectory .. => return .nothing
    | .inappropriateType _ code _ => return if code = directoryCode then .directory else .nothing
    | error => return .unreadable (toString error)

def deliver (verbose : Bool) (answer : Answer) : IO UInt32 := do
  IO.eprint (logText Uid.text verbose answer.log)
  IO.print answer.output
  return answer.code.toUInt32

def serve : Request → IO UInt32
  | .help => do
    IO.println usage
    return 0
  | .version => do
    IO.println versionLine
    return 0
  | .misused => do
    IO.eprintln usage
    return 2
  | .tokens query => deliver false (tokenAnswer query)
  | .search search => do
    match answer search (← look (shortPath search.path)) with
    | .ok answer => deliver search.verbose answer
    | .error cause =>
      IO.eprintln cause.message
      return 1

end Rulebase.CommandLine

def main (arguments : List String) : IO UInt32 :=
  Rulebase.CommandLine.serve (Rulebase.CommandLine.Request.ofArguments arguments)
