import TeamDigest.CommandLine
import TeamDigest.Number.Word
import TeamDigest.Text.Numeral

/-!
# Options

The options of each command: the names under which they are given, and what they
do to the settings.  An option that sets something is given at most once; only
the one for verbosity counts how often it is given.
-/

namespace TeamDigest.CommandLine

open Report Text

/-- Why the arguments are not read to their end. -/
inductive Stop where
  /-- Help is asked for. -/
  | help
  /-- The version is asked for. -/
  | version
  /-- There is no such option, or no place for such an argument. -/
  | unknown (argument : String)
  /-- There is no such command. -/
  | unknownCommand (name : String)
  /-- The value of an option is missing or not among the possible ones. -/
  | badValue (value : String)
  /-- The value of an option is no number, or too great a one. -/
  | badNumber (value : String)
  /-- An option is given twice. -/
  | repeated
  /-- An option that takes no value is given one. -/
  | surplusValue (value : String)
  deriving DecidableEq

/-- What the options of a command line set. -/
structure Settings where
  config : Option String
  noStore : Bool
  verbosity : Nat
  days : Option Nat
  detail : Option Detail
  noMisc : Bool
  output : Option String
  publish : Bool
  force : Bool
  deriving DecidableEq

namespace Settings

/-- The settings without any option. -/
def none : Settings :=
  { config := .none, noStore := false, verbosity := 0, days := .none, detail := .none
    noMisc := false, output := .none, publish := false, force := false }

/-- The settings of a command, with what was set before it where the command
does not say otherwise. -/
def after (own before : Settings) : Settings :=
  { own with
    config := own.config.or before.config
    noStore := own.noStore || before.noStore
    verbosity := if own.verbosity = 0 then before.verbosity else own.verbosity }

end Settings

/-- What an option does to the settings. -/
inductive Effect where
  /-- It takes a value. -/
  | value (set : String → Settings → Except Stop Settings)
  /-- It stands alone. -/
  | flag (set : Settings → Except Stop Settings)

namespace Effect

/-- Sets what is not set yet to the meaning of a value. -/
def setting {α : Type} (current : Settings → Option α) (read : String → Except Stop α)
    (store : α → Settings → Settings) : Effect :=
  .value fun text s =>
    if (current s).isSome then .error .repeated else (read text).map (store · s)

/-- Turns on what is not turned on yet. -/
def switch (current : Settings → Bool) (turnOn : Settings → Settings) : Effect :=
  .flag fun s => if current s then .error .repeated else .ok (turnOn s)

/-- Ends the reading. -/
def stop (reason : Stop) : Effect := .flag fun _ => .error reason

end Effect

/-! ## Values -/

/-- A path, which is not empty. -/
def readPath (text : String) : Except Stop String :=
  if text.isEmpty then .error (.badValue text) else .ok text

/-- A number of days of 32 bits. -/
def readDays (text : String) : Except Stop Nat :=
  match integer? text.toList with
  | some i => if 0 ≤ i ∧ i < Number.wordSize32 then .ok i.toNat else .error (.badNumber text)
  | none => .error (.badNumber text)

/-- A degree of detail by its name. -/
def readDetail (text : String) : Except Stop Detail :=
  match text with
  | "terse" => .ok .terse
  | "full" => .ok .full
  | "verbose" => .ok .verbose
  | _ => .error (.badValue text)

/-! ## The options -/

/-- An option with the names under which it is given. -/
structure Rule where
  /-- The name after two hyphens. -/
  long : String
  /-- The letter after one hyphen. -/
  short : Option Char
  effect : Effect

/-- The options of all commands. -/
def commonRules : List Rule :=
  [⟨"config", some 'c', .setting (·.config) readPath fun p s => { s with config := some p }⟩,
   ⟨"no-cache", none, .switch (·.noStore) fun s => { s with noStore := true }⟩,
   ⟨"verbose", some 'v',
     .flag fun s => .ok { s with verbosity := min 255 (s.verbosity + 1) }⟩,
   ⟨"help", some 'h', .stop .help⟩]

/-- The options before any command. -/
def leadingRules : List Rule :=
  commonRules ++ [⟨"version", some 'V', .stop .version⟩]

/-- The option for the days to cover. -/
def daysRule : Rule :=
  ⟨"days", some 'd', .setting (·.days) readDays fun n s => { s with days := some n }⟩

/-- The option to publish a report. -/
def publishRule : Rule :=
  ⟨"publish", none, .switch (·.publish) fun s => { s with publish := true }⟩

/-- The commands by name. -/
inductive Name where
  | summary
  | metrics
  | init
  | config
  | clearStore
  | storeStats
  deriving DecidableEq

namespace Name

/-- The command with a name. -/
def ofText? : String → Option Name
  | "summary" => some summary
  | "metrics" => some metrics
  | "init" => some init
  | "config" => some config
  | "clear-cache" => some clearStore
  | "cache-stats" => some storeStats
  | _ => none

/-- The options of a command. -/
def rules (name : Name) : List Rule :=
  commonRules ++
    match name with
    | summary =>
      [daysRule, publishRule,
       ⟨"format", some 'f',
         .setting (·.detail) readDetail fun d s => { s with detail := some d }⟩,
       ⟨"no-misc", none, .switch (·.noMisc) fun s => { s with noMisc := true }⟩,
       ⟨"output", some 'o',
         .setting (·.output) readPath fun p s => { s with output := some p }⟩]
    | metrics => [daysRule, publishRule]
    | init => [⟨"force", none, .switch (·.force) fun s => { s with force := true }⟩]
    | config | clearStore | storeStats => []

/-- The command with what is set for it. -/
def command (name : Name) (s : Settings) : Command :=
  match name with
  | summary =>
    .summary
      { days := s.days, detail := s.detail.getD .full, noMisc := s.noMisc
        output := s.output, publish := s.publish }
  | metrics => .metrics { days := s.days, publish := s.publish }
  | init => .init s.force
  | config => .config
  | clearStore => .clearStore
  | storeStats => .storeStats

end Name

end TeamDigest.CommandLine
