import VmHandler.Command.Arguments
import VmHandler.Command.Report
import VmHandler.Dump.Load
import VmHandler.Text.Plain

/-!
# Running a command

A command turns what is found at its path into an exit code and two texts: the report, and what
goes beside it, which is the announcements and, at the end, the reason for a failure. A report that
a program is to read is not accompanied by announcements.
-/

set_option autoImplicit false

namespace VmHandler.Command

/-- What a command leaves behind. -/
structure Outcome where
  /-- The exit code. -/
  code : Nat
  output : String
  /-- What it writes beside that. -/
  diagnostics : String
  deriving DecidableEq, Repr

/-- Lines, each with its end. -/
def unlines (lines : List String) : String := String.join (lines.map fun line => line ++ "\n")

/-- A text with blanks in front of each line but the first. -/
def indented (blanks : Nat) (s : String) : String :=
  String.ofList
    (s.toList.flatMap fun c => if c = '\n' then '\n' :: List.replicate blanks ' ' else [c])

/-! ## Announcements -/

/-- The line of an announcement with its end; controls and sequences for a terminal are left
out. -/
def announcementText (a : Announcement) : String :=
  let level := String.ofList (a.level.name.toList.rightpad 5 ' ')
  Text.plain s!"[{level}] {indented 4 a.message}\n"

/-- The lines of the announcements that are shown. -/
def Invocation.announcementText (i : Invocation) (announced : List Announcement) : String :=
  if i.json then ""
  else
    String.join
      ((announced.filter fun a => i.verbose || a.level ≠ .debug).map Command.announcementText)

/-! ## Failures -/

/-- Why a command fails, with the causes of the reason, each the cause of the one before. -/
structure Complaint where
  reason : String
  causes : List String := []
  deriving DecidableEq, Repr

/-- The causes with their numbers. -/
def numberedLines (index : Nat) : List String → List String
  | [] => []
  | cause :: causes =>
      let number := String.ofList ((Nat.toDigits 10 index).leftpad 5 ' ')
      s!"{number}: {indented 7 cause}" :: numberedLines (index + 1) causes

/-- The lines on the causes; a single one has no number. -/
def Complaint.causeLines (c : Complaint) : List String :=
  match c.causes with
  | [] => []
  | [cause] => ["", "Caused by:", "    " ++ indented 4 cause]
  | causes => "" :: "Caused by:" :: numberedLines 0 causes

/-- The lines of a complaint. -/
def Complaint.lines (c : Complaint) : List String := s!"Error: {c.reason}" :: c.causeLines

/-- The complaint about a name that is no policy. -/
def Complaint.unknownPolicy (name : String) : Complaint :=
  ⟨s!"unknown ambiguity policy '{name}' (first, report, reject)", ["Matching variant not found"]⟩

/-- The complaint about a module that is not loaded; a file that cannot be opened is the cause of
its own fault. -/
def Complaint.notLoaded (path : String) (f : LoadFault) : Complaint :=
  ⟨s!"failed to load module: {path}",
    match f with
    | .file fault => [fault.message, fault.message]
    | .mapping _ | .malformed _ => [f.message]⟩

/-- What a command leaves behind that fails before it has anything to report. -/
def Complaint.outcome (c : Complaint) : Outcome := ⟨1, "", unlines c.lines⟩

/-! ## Commands -/

/-- A report as it is asked for. -/
def Invocation.render (i : Invocation) (value : Json.Value) (lines : List String) : String :=
  if i.json then value.pretty ++ "\n" else unlines lines

/-- Finds the handler of a module. -/
def Invocation.locate (i : Invocation) (search : Search) (m : Module) : Outcome :=
  let (result, journal) := search.discover m {}
  let report := LocateReport.ofDiscovery i.path m result journal.log
  let complaint :=
    match result with
    | .ok _ => []
    | .error f => Complaint.lines ⟨f.message, []⟩
  { code := if complaint.isEmpty then 0 else 1
    output := i.render report.toValue report.lines
    diagnostics := i.announcementText journal.announced ++ unlines complaint }

/-- Runs a command on a module. -/
def Invocation.report (i : Invocation) (m : Module) (policy : Policy) : Outcome :=
  match i.job with
  | .locate parallel _ => i.locate { policy := policy, parallel := parallel } m
  | .candidates =>
      let r := CandidatesReport.ofModule m
      ⟨0, i.render r.toValue r.lines, ""⟩
  | .types space =>
      let r := TypesReport.ofModule m space
      ⟨0, i.render r.toValue r.lines, ""⟩

/-- The policy that a command asks for by name, where it asks for one. -/
def Invocation.policy (i : Invocation) : Except Complaint Policy :=
  match i.job with
  | .locate _ name =>
      match Policy.ofName? name with
      | some p => .ok p
      | none => .error (.unknownPolicy name)
  | .candidates | .types _ => .ok .first

/-- Runs a command on what is found at its path; the policy is judged before the file. -/
def Invocation.run (i : Invocation) (source : Source) : Outcome :=
  match i.policy with
  | .error c => c.outcome
  | .ok policy =>
      match Module.ofSource i.path source with
      | .error f => (Complaint.notLoaded i.path f).outcome
      | .ok m => i.report m policy

/-! ## Everything else -/

/-- The name of the program and its version. -/
def versionText : String := "vmscope 0.1.0\n"

/-- How the program is called. -/
def helpText : String :=
  unlines
    ["vmscope - locate the VM function handler of protected .NET assemblies", "",
      "Usage: vmscope [--json] [-v|--verbose] <COMMAND>", "", "Commands:",
      "  locate FILE [--parallel] [--ambiguity POLICY]",
      "          Locate the VM type and its function handler",
      "  candidates FILE",
      "          List every type declaring a method that qualifies as handler",
      "  types FILE [--namespace NAMESPACE]",
      "          List types in traversal order", "", "Options:",
      "      --json     Emit output as JSON instead of human-readable text",
      "  -v, --verbose  Enable verbose (debug-level) logging output",
      "  -h, --help     Print help", "  -V, --version  Print version"]

/-- What arguments that ask for nothing leave behind. -/
def UsageFault.outcome (f : UsageFault) : Outcome :=
  ⟨2, "", unlines [f.message, "", "Usage: vmscope [OPTIONS] <COMMAND>"]⟩

/-- Carries out a request; `source` says what is found at a path. -/
def Request.run (source : String → Source) : Request → Outcome
  | .version => ⟨0, versionText, ""⟩
  | .help => ⟨0, helpText, ""⟩
  | .invoke i => i.run (source i.path)

/-- Runs the program on its arguments. -/
def run (arguments : List String) (source : String → Source) : Outcome :=
  match Request.ofArguments arguments with
  | .error f => f.outcome
  | .ok r => r.run source

end VmHandler.Command
