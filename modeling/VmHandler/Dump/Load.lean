import VmHandler.Dump.Reader
import VmHandler.Module.Draft
import VmHandler.Method.Draft
import VmHandler.TypeDecl.Draft

/-!
# Loading modules

A module is loaded from a text, from octets or from a file. The dump is read to its end before its
tokens are judged. `Module.read` takes the other order: it judges the tokens as soon as the dump
ends, before it looks at what follows.
-/

set_option autoImplicit false

namespace VmHandler

open VmHandler.Json

/-! ## What can go wrong -/

/-- A model that is not as it has to be. -/
inductive Malformed where
  /-- there is no text at all -/
  | emptyText
  /-- there is a file, but no text in it -/
  | emptyFile (path : String)
  /-- the text is no dump -/
  | unreadable (fault : Fault)
  /-- the tokens of the types do not tell them apart -/
  | defect (defect : Defect)
  /-- a draft is no method -/
  | method (reason : Method.Incomplete)
  /-- a draft is no type -/
  | type (reason : TypeDecl.Incomplete)
  deriving DecidableEq, Repr

/-- What is wrong with the model. -/
def Malformed.reason : Malformed → String
  | emptyText => "Provided module dump is empty"
  | emptyFile path => s!"Module dump {path} is empty"
  | unreadable fault => s!"Invalid module dump - {fault.message}"
  | defect d => d.message
  | method reason => reason.message
  | type reason => reason.message

/-- What is wrong with the model, behind the words that it is wrong. -/
def Malformed.message (m : Malformed) : String := s!"Malformed - {m.reason}"

/-- A file that cannot be opened. -/
structure FileFault where
  /-- What the system says. -/
  reason : String
  /-- The number under which the system reports it; a path may be refused before the system is
  asked. -/
  code : Option Nat
  deriving DecidableEq, Repr

namespace FileFault

/-- What the system says, with the number. -/
def message (f : FileFault) : String :=
  match f.code with
  | none => f.reason
  | some code => s!"{f.reason} (os error {code})"

/-- There is nothing at the path. -/
def missing : FileFault := ⟨"No such file or directory", some 2⟩

/-- The path leads through something that is no directory. -/
def notDirectory : FileFault := ⟨"Not a directory", some 20⟩

/-- The path or a name in it is longer than the system allows. -/
def nameTooLong : FileFault := ⟨"File name too long", some 36⟩

/-- The path holds the character zero. -/
def zeroInPath : FileFault := ⟨"file name contained an unexpected NUL byte", none⟩

/-- What is at the path has no contents that could be mapped into memory. -/
def notMappable : FileFault := ⟨"No such device", some 19⟩

end FileFault

/-- What is found at a path. -/
inductive Source where
  /-- nothing that can be opened -/
  | failed (fault : FileFault)
  /-- a directory -/
  | directory
  /-- a file with its contents -/
  | file (contents : Octets)
  deriving DecidableEq, Repr

/-- Why no module is loaded from a path. -/
inductive LoadFault where
  /-- the file cannot be opened -/
  | file (fault : FileFault)
  /-- the file can be opened but not mapped into memory -/
  | mapping (fault : FileFault)
  /-- the file holds no module -/
  | malformed (reason : Malformed)
  deriving DecidableEq, Repr

/-- What the fault says. -/
def LoadFault.message : LoadFault → String
  | file f => f.message
  | mapping f => f.message
  | malformed m => m.message

/-- Why no module is read when the tokens are judged first. -/
inductive ReadFault where
  /-- the text is no dump -/
  | fault (fault : Fault)
  /-- the dump is no module -/
  | malformed (reason : Malformed)
  deriving DecidableEq, Repr

/-- What the fault says. -/
def ReadFault.message : ReadFault → String
  | fault f => f.message
  | malformed m => m.message

/-! ## Loading -/

namespace Module

/-- The module of a dump. -/
def ofDump (d : Dump) : Except Malformed Module :=
  match Module.build d.name d.types with
  | .error defect => .error (.defect defect)
  | .ok m => .ok m

/-- The module of the octets of a text. -/
def ofOctets (bs : Octets) : Except Malformed Module :=
  if bs.isEmpty then .error .emptyText
  else
    match Dump.ofOctets bs with
    | .error f => .error (.unreadable f)
    | .ok d => ofDump d

/-- The module of a text. -/
def ofJson (s : String) : Except Malformed Module := ofOctets (octets s)

/-- The module of what is found at a path. -/
def ofSource (path : String) : Source → Except LoadFault Module
  | .failed f => .error (.file f)
  | .directory => .error (.mapping .notMappable)
  | .file contents =>
      if contents.isEmpty then .error (.malformed (.emptyFile path))
      else
        match ofOctets contents with
        | .error m => .error (.malformed m)
        | .ok m => .ok m

/-- The module of a text whose tokens are judged before what follows the dump. -/
def read (s : String) : Except ReadFault Module :=
  match Dump.read Dump.maxBrackets (octets s) with
  | .error f => .error (.fault f)
  | .ok (d, rest) =>
      match ofDump d with
      | .error m => .error (.malformed m)
      | .ok m => if (skipBlanks rest).isEmpty then .ok m else .error (.fault .trailingText)

end Module

end VmHandler
