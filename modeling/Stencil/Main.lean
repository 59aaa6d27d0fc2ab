import Stencil.Command.Report

/-!
# The program

Reads the files that an invocation names, carries it out, and prints what it leaves. Nothing is
decided here.
-/

set_option autoImplicit false

namespace Stencil

/-- Whether an error has a number, which some calls give with a minus sign. -/
def hasNumber (code number : UInt32) : Bool := code = number || code = 0 - number

/-- Why the disk gives no content. Faults of the disk that no other module knows of are taken for a
file that is missing. -/
def FileFault.ofError : IO.Error → FileFault
  | .inappropriateType _ code _ => if hasNumber code 20 then .throughFile else .folder
  | .permissionDenied _ _ _ => .denied
  | .invalidArgument _ code _ => if hasNumber code 36 then .tooLong else .missing
  | _ => .missing

def readPath (p : Path) : IO (Except FileFault String) := do
  if p.chars.contains '\x00' then return .error .nullCharacter
  match ← (IO.FS.readBinFile p.text).toBaseIO with
  | .error e => return .error (.ofError e)
  | .ok bytes => return (String.fromUTF8? bytes).elim (.error .noText) .ok

def Output.print : Output → IO Unit
  | .text s => IO.print s
  | .bytes b => do (← IO.getStdout).write ⟨b.toArray⟩

def brokenCode : UInt32 := 1

def Report.print (r : Report) : IO UInt32 := do
  r.output.print
  IO.eprint r.remarks
  match r.completion with
  | .exited code => return code.toUInt32
  | .broken fault =>
    IO.eprint fault.line
    return brokenCode
  | .unfinished => return brokenCode

/-- Carries out the command that words ask for. All paths that it can look up are read beforehand,
which leaves nothing but printing to do behind it. -/
def runCommand (words : List String) : IO UInt32 := do
  match Invocation.ofWords words with
  | .error d =>
    IO.print d.output
    IO.eprint d.remarks
    return d.code.toUInt32
  | .ok invocation =>
    let found ← invocation.paths.mapM fun p => do return (p, ← readPath p)
    let look : Look := fun p => (found.lookup p).getD (.error .missing)
    let details := ((← IO.getEnv "SMARTSCRIPT_DEBUG").getD "") ≠ ""
    (invocation.perform turnLimit look details).print

end Stencil

def main (words : List String) : IO UInt32 := Stencil.runCommand words
