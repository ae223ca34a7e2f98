import GlyphLexer.CommandLine.Run

/-!
# The program

The command line in the real world. The arguments say what a run will look
at, and only that is gathered: the configuration file of the working
directory, and the file or the standard input that is to be scanned.
Everything else is `CommandLine.run`.

## Main definitions

* `main`: The program.
-/

namespace GlyphLexer

namespace CommandLine

/-- The system's error number for reading a directory. -/
def readsDirectory : UInt32 := 21

/-- What a path of the file system holds. A path that goes on below a file
    holds nothing. -/
def readState (path : Text) : IO FileState := do
  try
    let content ← IO.FS.readBinFile path.toString
    return .file content.toList
  catch e =>
    match e with
    | .noFileOrDirectory .. => return .missing
    | .invalidArgument .. => return .missing
    | .inappropriateType _ code _ => return if code = readsDirectory then .directory else .missing
    | .permissionDenied .. =>
      return .unreadable (text "EACCES: permission denied, open '" ++ path ++ text "'")
    | e => return .unreadable (text (toString e))

/-- Everything that a stream still brings. -/
partial def readStream (stream : IO.FS.Stream) (read : ByteArray) : IO ByteArray := do
  let chunk ← stream.read 65536
  if chunk.isEmpty then return read else readStream stream (read ++ chunk)

/-- The world of a run, as far as its command looks at it. -/
def gather : Command → IO Environment
  | .lex input _ => do
    let config ← readState Configuration.fileName
    match input with
    | .file path =>
      let state ← readState path
      return ⟨fun p => if p = path then state else .missing, [], config⟩
    | .stdin =>
      let read ← readStream (← IO.getStdin) ByteArray.empty
      return ⟨fun _ => .missing, read.toList, config⟩
    | _ => return ⟨fun _ => .missing, [], config⟩
  | _ => return ⟨fun _ => .missing, [], .missing⟩

end CommandLine

end GlyphLexer

open GlyphLexer in
/-- Runs the command line with the arguments of the process. -/
def main (args : List String) : IO UInt32 := do
  let argv := args.map text
  let env ← match CommandLine.parse argv with
    | .ok command => CommandLine.gather command
    | .error _ => pure ⟨fun _ => .missing, [], .missing⟩
  let outcome := CommandLine.run argv env
  (← IO.getStdout).putStr outcome.stdout.toString
  (← IO.getStderr).putStr outcome.stderr.toString
  return outcome.exitCode.toUInt32
