/-!
# Arguments

A line of arguments asks for one of three commands on a file, for the version or for help. Options
may stand before or behind the file, a short option may share its dash with others, the value of
an option is the next argument or follows an equals sign, and behind two dashes every argument is
a file. No option may be given twice in one place; those that all commands share may be given once
before and once behind the name of the command. Arguments are judged from left to right.
-/

set_option autoImplicit false

namespace VmHandler.Command

/-! ## What can be asked for -/

/-- A command on a file. -/
inductive Job where
  /-- find the handler, under a policy of a given name -/
  | locate (parallel : Bool) (policy : String)
  /-- list the candidates -/
  | candidates
  /-- list the types, or only those of a namespace -/
  | types (space : Option String)
  deriving DecidableEq, Repr

/-- A command with the options that all commands share. -/
structure Invocation where
  /-- Whether the output is to be one value for a program to read. -/
  json : Bool
  /-- Whether all announcements are shown. -/
  verbose : Bool
  path : String
  job : Job
  deriving DecidableEq, Repr

/-- What a line of arguments asks for. -/
inductive Request where
  | version
  | help
  | invoke (invocation : Invocation)
  deriving DecidableEq, Repr

/-- Why a line of arguments asks for nothing. -/
inductive UsageFault where
  /-- there is no command of the name -/
  | unknownCommand (word : String)
  /-- there is no option of the name here -/
  | unknownOption (option : String)
  /-- an option is given twice -/
  | repeatedOption (option : String)
  /-- an option that takes no value has one -/
  | unwantedValue (option : String)
  /-- an option that takes a value has none -/
  | missingValue (option : String)
  /-- there is no command -/
  | missingCommand
  /-- there is no file, or its name is empty -/
  | missingFile
  /-- there is more than one file -/
  | extraArgument (word : String)
  deriving DecidableEq, Repr

/-- What is wrong with the arguments. -/
def UsageFault.message : UsageFault → String
  | unknownCommand word => s!"error: unrecognized subcommand '{word}'"
  | unknownOption option => s!"error: unexpected argument '{option}' found"
  | repeatedOption option => s!"error: the argument '{option}' cannot be used multiple times"
  | unwantedValue option => s!"error: unexpected value for '{option}' found"
  | missingValue option => s!"error: a value is required for '{option}' but none was supplied"
  | missingCommand => "error: a command is required but none was supplied"
  | missingFile => "error: the file is required but was not supplied"
  | extraArgument word => s!"error: unexpected argument '{word}' found"

/-! ## Words -/

/-- How an argument is written. -/
inductive Word where
  /-- two dashes alone -/
  | separator
  /-- an option behind two dashes, with the value behind an equals sign -/
  | long (name : String) (value : Option String)
  /-- options of one letter behind one dash -/
  | short (letters : List Char)
  /-- anything else, a dash alone included -/
  | plain (text : String)
  deriving DecidableEq, Repr

/-- The text in front of the first equals sign, and the text behind it if there is one. -/
def splitValue (cs : List Char) : String × Option String :=
  (String.ofList (cs.takeWhile (· ≠ '=')),
    match cs.dropWhile (· ≠ '=') with
    | [] => none
    | _ :: value => some (String.ofList value))

/-- How an argument is written. -/
def Word.ofArgument (argument : String) : Word :=
  match argument.toList with
  | ['-', '-'] => .separator
  | '-' :: '-' :: cs => .long (splitValue cs).1 (splitValue cs).2
  | '-' :: c :: cs => .short (c :: cs)
  | _ => .plain argument

/-- Whether an argument cannot be the value of an option in front of it. -/
def isOption (argument : String) : Bool :=
  match Word.ofArgument argument with
  | .plain _ => false
  | _ => true

/-! ## Options -/

/-- The name of a command. -/
inductive Verb where
  | locate
  | candidates
  | types
  deriving DecidableEq, Repr

/-- The command of a name. -/
def Verb.ofName? (s : String) : Option Verb :=
  if s = "locate" then some locate
  else if s = "candidates" then some candidates
  else if s = "types" then some types
  else none

/-- An option. -/
inductive Opt where
  /-- output for a program to read -/
  | json
  /-- all announcements -/
  | verbose
  | version
  | help
  /-- look at the types side by side -/
  | parallel
  /-- the name of the policy -/
  | ambiguity
  | space
  deriving DecidableEq, Repr

/-- The option of a name behind two dashes; the place is in front of the command or in it. -/
def Opt.ofName? (place : Option Verb) (name : String) : Option Opt :=
  if name = "json" then some json
  else if name = "verbose" then some verbose
  else if name = "help" then some help
  else if name = "version" ∧ place = none then some version
  else if name = "parallel" ∧ place = some .locate then some parallel
  else if name = "ambiguity" ∧ place = some .locate then some ambiguity
  else if name = "namespace" ∧ place = some .types then some space
  else none

/-- The option of a letter behind one dash. -/
def Opt.ofLetter? (place : Option Verb) (letter : Char) : Option Opt :=
  if letter = 'v' then some verbose
  else if letter = 'h' then some help
  else if letter = 'V' ∧ place = none then some version
  else none

/-- The options and the file that have been given in one place. -/
structure Given where
  json : Bool := false
  verbose : Bool := false
  parallel : Bool := false
  ambiguity : Option String := none
  space : Option String := none
  path : Option String := none
  deriving DecidableEq, Repr

/-- What an option without a value leads to. -/
inductive Effect where
  /-- the arguments ask for something else than a command -/
  | request (request : Request)
  /-- the option has been noted -/
  | noted (given : Given)
  /-- the option needs a value -/
  | valueWanted
  deriving DecidableEq, Repr

/-- Notes an option that is written as `word`. -/
def Given.note (g : Given) (word : String) : Opt → Except UsageFault Effect
  | .json =>
      if g.json then .error (.repeatedOption word) else .ok (.noted { g with json := true })
  | .verbose =>
      if g.verbose then .error (.repeatedOption word) else .ok (.noted { g with verbose := true })
  | .parallel =>
      if g.parallel then .error (.repeatedOption word)
      else .ok (.noted { g with parallel := true })
  | .version => .ok (.request .version)
  | .help => .ok (.request .help)
  | .ambiguity => .ok .valueWanted
  | .space => .ok .valueWanted

/-- Notes the value of an option that is written as `word`. -/
def Given.noteValue (g : Given) (word value : String) : Opt → Except UsageFault Given
  | .ambiguity =>
      if g.ambiguity.isSome then .error (.repeatedOption word)
      else .ok { g with ambiguity := some value }
  | .space =>
      if g.space.isSome then .error (.repeatedOption word)
      else .ok { g with space := some value }
  | .json | .verbose | .parallel | .version | .help => .error (.unwantedValue word)

/-- Notes the file. -/
def Given.notePath (g : Given) (word : String) : Except UsageFault Given :=
  if g.path.isSome then .error (.extraArgument word)
  else if word.isEmpty then .error .missingFile
  else .ok { g with path := some word }

/-- Notes options of one letter. -/
def Given.noteLetters (place : Option Verb) (g : Given) : List Char → Except UsageFault Effect
  | [] => .ok (.noted g)
  | letter :: letters =>
      let word := String.ofList ['-', letter]
      match Opt.ofLetter? place letter with
      | none => .error (.unknownOption word)
      | some opt =>
          match g.note word opt with
          | .error f => .error f
          | .ok (.noted g) => noteLetters place g letters
          | .ok effect => .ok effect

/-- Notes an option behind two dashes that has no value of its own. -/
def Given.noteLong (place : Option Verb) (g : Given) (name : String) :
    Except UsageFault (Opt × Effect) :=
  let word := "--" ++ name
  match Opt.ofName? place name with
  | none => .error (.unknownOption word)
  | some opt =>
      match g.note word opt with
      | .error f => .error f
      | .ok effect => .ok (opt, effect)

/-- Notes an option behind two dashes with its value. -/
def Given.noteLongValue (place : Option Verb) (g : Given) (name value : String) :
    Except UsageFault Given :=
  let word := "--" ++ name
  match Opt.ofName? place name with
  | none => .error (.unknownOption word)
  | some opt => g.noteValue word value opt

/-! ## Lines of arguments -/

/-- Notes files. -/
def Given.notePaths (g : Given) : List String → Except UsageFault Given
  | [] => .ok g
  | word :: words =>
      match g.notePath word with
      | .error f => .error f
      | .ok g => notePaths g words

/-- The command of what was given in front of its name and behind it. -/
def Verb.invocation (verb : Verb) (front g : Given) : Except UsageFault Request :=
  match g.path with
  | none => .error .missingFile
  | some path =>
      .ok (.invoke
        { json := front.json || g.json
          verbose := front.verbose || g.verbose
          path := path
          job :=
            match verb with
            | .locate => .locate g.parallel (g.ambiguity.getD "first")
            | .candidates => .candidates
            | .types => .types g.space })

/-- What the arguments behind the name of a command ask for. -/
def Verb.request (verb : Verb) (front g : Given) : List String → Except UsageFault Request
  | [] => verb.invocation front g
  | argument :: rest =>
      match Word.ofArgument argument with
      | .separator =>
          match g.notePaths rest with
          | .error f => .error f
          | .ok g => verb.invocation front g
      | .plain word =>
          match g.notePath word with
          | .error f => .error f
          | .ok g => verb.request front g rest
      | .short letters =>
          match g.noteLetters (some verb) letters with
          | .error f => .error f
          | .ok (.request r) => .ok r
          | .ok (.noted g) => verb.request front g rest
          | .ok .valueWanted => .error (.missingValue argument)
      | .long name (some value) =>
          match g.noteLongValue (some verb) name value with
          | .error f => .error f
          | .ok g => verb.request front g rest
      | .long name none =>
          match g.noteLong (some verb) name with
          | .error f => .error f
          | .ok (_, .request r) => .ok r
          | .ok (_, .noted g) => verb.request front g rest
          | .ok (opt, .valueWanted) =>
              match rest with
              | [] => .error (.missingValue argument)
              | value :: rest =>
                  if isOption value then .error (.missingValue argument)
                  else
                    match g.noteValue argument value opt with
                    | .error f => .error f
                    | .ok g => verb.request front g rest

/-- What the arguments behind `help` ask for, which may name one command or help itself. -/
def helpRequest : List String → Except UsageFault Request
  | [] => .ok .help
  | word :: rest =>
      if (Verb.ofName? word).isSome || word = "help" then
        match rest with
        | [] => .ok .help
        | extra :: _ => .error (.unknownCommand extra)
      else .error (.unknownCommand word)

/-- What the arguments ask for, up to the name of the command. -/
def requestFrom (g : Given) : List String → Except UsageFault Request
  | [] => .error .missingCommand
  | argument :: rest =>
      match Word.ofArgument argument with
      | .separator =>
          match rest with
          | [] => .error .missingCommand
          | word :: _ => .error (.extraArgument word)
      | .plain word =>
          match Verb.ofName? word with
          | some verb => verb.request g {} rest
          | none => if word = "help" then helpRequest rest else .error (.unknownCommand word)
      | .short letters =>
          match g.noteLetters none letters with
          | .error f => .error f
          | .ok (.request r) => .ok r
          | .ok (.noted g) => requestFrom g rest
          | .ok .valueWanted => .error (.missingValue argument)
      | .long name (some value) =>
          match g.noteLongValue none name value with
          | .error f => .error f
          | .ok g => requestFrom g rest
      | .long name none =>
          match g.noteLong none name with
          | .error f => .error f
          | .ok (_, .request r) => .ok r
          | .ok (_, .noted g) => requestFrom g rest
          | .ok (_, .valueWanted) => .error (.missingValue argument)

/-- What a line of arguments asks for. -/
def Request.ofArguments (arguments : List String) : Except UsageFault Request :=
  requestFrom {} arguments

end VmHandler.Command
