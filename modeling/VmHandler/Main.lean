import VmHandler.Command.Run

/-!
# The program

Reads the file that the arguments name and writes what the command leaves behind.
-/

set_option autoImplicit false

namespace VmHandler

/-- The number of a reason; some are reported as the negative word of it. -/
def systemNumber (code : UInt32) : Nat :=
  if code < 0x80000000 then code.toNat else (0 - code).toNat

/-- What is found at a path. -/
def Source.find (path : String) : IO Source := do
  if path.contains '\x00' then return .failed .zeroInPath
  try
    let contents ← IO.FS.readBinFile path
    return .file contents.data.toList
  catch
    | .noFileOrDirectory .. => return .failed .missing
    -- reading a directory fails with the number 21, a path through a file with another one
    | .inappropriateType _ 21 _ => return .directory
    | .inappropriateType .. => return .failed .notDirectory
    | .invalidArgument .. => return .failed .nameTooLong
    | .resourceExhausted _ code reason => return .failed ⟨reason, some (systemNumber code)⟩
    | .permissionDenied _ code _ =>
        return .failed ⟨"Permission denied", some (systemNumber code)⟩
    | _ => return .failed ⟨"Input/output error", some 5⟩

/-- What arguments leave behind when the file that they name is read. -/
def execute (arguments : List String) : IO Command.Outcome := do
  match Command.Request.ofArguments arguments with
  | .error f => return f.outcome
  | .ok (.invoke i) =>
      let source ← Source.find i.path
      return i.run source
  | .ok r => return r.run fun _ => .failed .missing

end VmHandler

/-- Runs the program. -/
def main (arguments : List String) : IO UInt32 := do
  let outcome ← VmHandler.execute arguments
  IO.print outcome.output
  IO.eprint outcome.diagnostics
  return UInt32.ofNat outcome.code
