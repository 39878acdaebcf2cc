import TeamDigest.CommandLine.Options
import TeamDigest.Text.Pieces

/-!
# Reading arguments

Arguments are options, values of options, and the name of one command.  Options
may stand before the command and after it.  An option with a value is given as
two arguments or as one; options of one letter may share an argument.

An option that takes its value from the next argument is *pending* until the
next option, or the end of the arguments, shows that it is complete.  What is
wrong with it comes up only then, after anything that is wrong with the form of
the arguments up to there.
-/

namespace TeamDigest.CommandLine

open Text

/-- An argument, by its form. -/
inductive Argument where
  /-- Two hyphens: no options follow. -/
  | escape
  /-- An option by its long name, with the value behind an equals sign. -/
  | long (name : String) (value : Option String)
  /-- Options by their letters. -/
  | letters (first : Char) (rest : List Char)
  | word (text : String)
  deriving DecidableEq

/-- The form of an argument. -/
def Argument.ofText (text : String) : Argument :=
  match text.toList with
  | ['-', '-'] => .escape
  | '-' :: '-' :: rest =>
    match splitAtFirst '=' rest with
    | some (name, value) => .long (String.ofList name) (some (String.ofList value))
    | none => .long (String.ofList rest) none
  | '-' :: first :: rest => .letters first rest
  | _ => .word text

/-- An option of which the effect is still to come. -/
structure Pending where
  set : String → Settings → Except Stop Settings
  /-- Its value, if that has been read. -/
  value : Option String

/-- How far the arguments are read. -/
structure Reading where
  settings : Settings
  pending : Option Pending

namespace Reading

/-- Before the first argument. -/
def start : Reading := ⟨.none, none⟩

/-- The settings with the effect of the pending option. -/
def settle (r : Reading) : Except Stop Settings :=
  match r.pending with
  | none => .ok r.settings
  | some ⟨_, none⟩ => .error (.badValue "")
  | some ⟨set, some value⟩ => set value r.settings

/-- What the next argument is a value for, unless it is an option itself. -/
def wanting? (r : Reading) : Option (String → Settings → Except Stop Settings) :=
  match r.pending with
  | some ⟨set, none⟩ => some set
  | _ => none

/-- Gives an option the value that stands in the same argument, if one does. -/
def give (r : Reading) (set : String → Settings → Except Stop Settings)
    (attached : Option String) : Except Stop Reading := do
  let settings ← r.settle
  match attached with
  | some value => pure ⟨← set value settings, none⟩
  | none => pure ⟨settings, some ⟨set, none⟩⟩

/-- Turns on an option that stands alone. -/
def turnOn (r : Reading) (set : Settings → Except Stop Settings) : Except Stop Reading := do
  pure ⟨← set (← r.settle), none⟩

/-- Reads an option by its long name. -/
def long (rules : List Rule) (r : Reading) (name : String) (attached : Option String) :
    Except Stop Reading :=
  match (rules.find? (·.long == name)).map Rule.effect, attached with
  | none, _ => .error (.unknown ("--" ++ name))
  | some (.value set), _ => r.give set attached
  | some (.flag _), some value => .error (.surplusValue value)
  | some (.flag set), none => r.turnOn set

/-- The value in the rest of an argument of letters; an equals sign may stand
before it. -/
def attachedValue : List Char → Option String
  | [] => none
  | '=' :: rest => some (String.ofList rest)
  | rest => some (String.ofList rest)

/-- Reads options by their letters. -/
def letters (rules : List Rule) (r : Reading) : List Char → Except Stop Reading
  | [] => .ok r
  | letter :: rest =>
    match (rules.find? (·.short == some letter)).map Rule.effect with
    | none => .error (.unknown (String.ofList ['-', letter]))
    | some (.value set) => r.give set (attachedValue rest)
    | some (.flag set) => do (← r.turnOn set).letters rules rest

end Reading

/-- What follows some options and their values. -/
inductive Rest where
  | nothing
  /-- A word that is no value, and the arguments after it. -/
  | word (text : String) (arguments : List String)
  /-- An argument after two hyphens. -/
  | literal (text : String)

/-- Reads options and their values, as far as they go. -/
def options (rules : List Rule) (r : Reading) : List String → Except Stop (Reading × Rest)
  | [] => .ok (r, .nothing)
  | argument :: rest =>
    match Argument.ofText argument with
    | .escape => .ok (r, (rest.head?.map Rest.literal).getD .nothing)
    | .long name attached => do options rules (← r.long rules name attached) rest
    | .letters first others => do options rules (← r.letters rules (first :: others)) rest
    | .word text =>
      match r.wanting? with
      | some set => options rules { r with pending := some ⟨set, some text⟩ } rest
      | none => .ok (r, .word text rest)

/-- Holds of the names of commands, that of the command for help included. -/
def isCommandName (text : String) : Bool :=
  text == "help" || (Name.ofText? text).isSome

/-- What the command for help leads to: help on one command or on all of them. -/
def helpOn : List String → Stop
  | [] => .help
  | [topic] => if isCommandName topic then .help else .unknownCommand topic
  | topic :: part :: _ => .unknownCommand (if isCommandName topic then part else topic)

/-- Reads the arguments of a command, to which nothing belongs but options. -/
def commandOptions (name : Name) (arguments : List String) : Except Stop Settings := do
  let (r, rest) ← options name.rules .start arguments
  match rest with
  | .nothing => r.settle
  | .word text _ | .literal text => throw (.unknown text)

/-- A command line with some settings. -/
def ofSettings (s : Settings) (command : Option Command) : CommandLine :=
  { config := s.config, noStore := s.noStore, verbosity := s.verbosity, command }

/-- Reads the arguments of the program. -/
def read (arguments : List String) : Except Stop CommandLine := do
  let (r, rest) ← options leadingRules .start arguments
  match rest with
  | .nothing => pure (ofSettings (← r.settle) none)
  | .literal text => throw (if isCommandName text then .unknown text else .unknownCommand text)
  | .word "help" topics => throw (helpOn topics)
  | .word text arguments =>
    match Name.ofText? text with
    | none => throw (.unknownCommand text)
    | some name =>
      let own ← commandOptions name arguments
      let before ← r.settle
      pure (ofSettings (own.after before) (some (name.command own)))

end TeamDigest.CommandLine
