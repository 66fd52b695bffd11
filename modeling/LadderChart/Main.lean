import LadderChart.Command.Line

/-!
The program: it reads the file that the arguments name, prints the reply and ends with its code.
-/

namespace LadderChart

def namedInput (arguments : List String) : Option String :=
  match Command.wish .standard arguments with
  | .ok (.chart request) => request.input
  | _ => none

def fileFault : IO.Error → Command.FileFault
  | .noFileOrDirectory .. => .missing
  | .permissionDenied .. => .denied
  | .inappropriateType .. => .directory
  | e => .other (toString e)

def readInput (path : String) : IO (Except Command.FileFault String) := do
  try
    match String.fromUTF8? (← IO.FS.readBinFile path) with
    | some text => return .ok text
    | none => return .error .notText
  catch e =>
    return .error (fileFault e)

end LadderChart

def main (arguments : List String) : IO UInt32 := do
  let text ← match LadderChart.namedInput arguments with
    | some path => LadderChart.readInput path
    | none => pure (.ok "")
  let reply := LadderChart.Command.reply (fun _ => text) arguments
  IO.print reply.out
  IO.eprint reply.err
  return UInt32.ofNat reply.code

