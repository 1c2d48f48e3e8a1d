import ColumnQuery.CommandLine.Run

/-! # The program

Reads the files and the environment that a command needs, runs the command and writes what it
leaves behind.
-/

namespace ColumnQuery

/-- What an attempt to open or read a file has met with. -/
def contentOfError : IO.Error → FileContent
  | .inappropriateType .. => .unread .isDirectory
  | .invalidArgument .. => .unopened .nameTooLong
  | _ => .unopened .notFound

/-- What is found under a path. No reader of table files is at hand. -/
def readContent (path : String) : IO FileContent := do
  try
    let bytes ← IO.FS.readBinFile path
    let fault := if bytes.size < 8 then .tooSmall bytes.size else .corruptFooter
    return match String.fromUTF8? bytes with
      | some text => .text text fault
      | none => .binary fault
  catch error => return contentOfError error

def readFiles (paths : List String) : IO (List (String × FileContent)) :=
  paths.mapM fun path => return (path, ← readContent path)

end ColumnQuery

open ColumnQuery in
def main (words : List String) : IO UInt32 := do
  let setting ← IO.getEnv "TDF_BATCH_SIZE_ROWS"
  let files ← readFiles (CommandLine.pathsOf words)
  let content (path : String) := (files.lookup path).getD (.unopened .notFound)
  let transcript := CommandLine.run ⟨setting, content, fun _ => .opening⟩ words
  IO.print transcript.output
  IO.eprint transcript.errors
  return transcript.code
