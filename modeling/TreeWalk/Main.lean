import TreeWalk.CommandLine

/-!
This module contains the program. It reads files and input, and writes what the pure part answers.
-/

open TreeWalk

namespace TreeWalk.Main

/--
The number that the system gave to an error, which may have been negated on the way.
-/
def systemCode (code : UInt32) : UInt32 :=
  if code ≤ 0x7FFFFFFF then code else -code

def readErrorOf (error : IO.Error) : ReadError :=
  match error with
  | .noFileOrDirectory .. => .notFound
  | .permissionDenied .. => .denied
  | .inappropriateType _ code _ => if systemCode code = 21 then .isDirectory else .notDirectory
  | .invalidArgument _ code _ =>
    if systemCode code = 36 then .nameTooLong else .other (toString error)
  | _ => .other (toString error)

def readFile (path : String) : IO (Except ReadError ByteArray) := do
  try
    return .ok (← IO.FS.readBinFile path)
  catch error =>
    return .error (readErrorOf error)

def emit (stdout stderr : ByteArray) : IO Unit := do
  let out ← IO.getStdout
  out.write stdout
  out.flush
  (← IO.getStderr).write stderr

def finish (transcript : Transcript) : IO UInt32 := do
  emit transcript.stdout transcript.stderr
  return transcript.code.toUInt32

partial def readLine (input : IO.FS.Stream) (line : ByteArray) : IO ByteArray := do
  let byte ← input.read 1
  if byte.isEmpty then
    return line
  else if byte = "\n".toUTF8 then
    return line ++ byte
  else
    readLine input (line ++ byte)

partial def prompt (session : Session) : IO UInt32 := do
  emit Prompt.mark .empty
  let line ← readLine (← IO.getStdin) .empty
  if line.isEmpty then
    return Transcript.success.toUInt32
  match Prompt.step CommandLine.rounds session line with
  | none => return Transcript.softwareError.toUInt32
  | some (.stop transcript) => finish transcript
  | some (.next session stdout stderr) =>
    emit stdout stderr
    prompt session

end TreeWalk.Main

def main (arguments : List String) : IO UInt32 := do
  match Request.ofArguments ⟨none, false⟩ arguments with
  | .run ⟨none, showTrees⟩ => TreeWalk.Main.prompt (.new .unlimited showTrees)
  | .run ⟨some path, showTrees⟩ =>
    let contents ← TreeWalk.Main.readFile path
    match CommandLine.runFile CommandLine.rounds showTrees path contents with
    | none => return Transcript.softwareError.toUInt32
    | some transcript => TreeWalk.Main.finish transcript
  | _ =>
    match CommandLine.run CommandLine.rounds arguments (fun _ => .error .notFound) [] with
    | none => return Transcript.softwareError.toUInt32
    | some transcript => TreeWalk.Main.finish transcript
