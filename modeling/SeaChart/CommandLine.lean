/-!
The arguments of the program. An argument is settled when the next known one is met or when the
arguments end, so an unknown one is reported before a wrong value in front of it.
-/

namespace SeaChart

inductive Format where
  | chart
  | baseChart
  | geoTif
  | elevation
  | aml
deriving DecidableEq, Repr

namespace Format

def name : Format → String
  | .chart => "chart"
  | .baseChart => "basechart"
  | .geoTif => "geotif"
  | .elevation => "elevation"
  | .aml => "aml"

def all : List Format := [.chart, .baseChart, .geoTif, .elevation, .aml]

def ofName? (name : String) : Option Format :=
  all.find? (·.name == name)

end Format

inductive Verbosity where
  | off
  | warnings
  | information
  | debugging
  | tracing
deriving DecidableEq, Repr

def Verbosity.level : Verbosity → Nat
  | .off => 0
  | .warnings => 1
  | .information => 2
  | .debugging => 3
  | .tracing => 4

structure Request where
  settingsFile : String
  format : Format
  force : Bool
  resources : String
  quiet : Bool
  verbose : Nat
deriving DecidableEq, Repr

def Request.verbosity (r : Request) : Verbosity :=
  if r.quiet then .off
  else
    match r.verbose with
    | 0 => .warnings
    | 1 => .information
    | 2 => .debugging
    | _ => .tracing

inductive UsageError where
  | missingArgument
  | invalidValue
  | unknownArgument
  | conflict
  | tooManyValues
  | help
  | version
deriving DecidableEq, Repr

namespace UsageError

def isAnswer : UsageError → Bool
  | .help => true
  | .version => true
  | _ => false

def exitCode (e : UsageError) : Nat :=
  if e.isAnswer then 0 else 2

def message : UsageError → String
  | .missingArgument => "the settings file is missing"
  | .invalidValue => "a value is missing or not one of those that are possible"
  | .unknownArgument => "an argument is not known"
  | .conflict => "an argument cannot be used with another one or more than once"
  | .tooManyValues => "an argument that takes no value has one"
  | .help => ""
  | .version => ""

end UsageError

namespace CommandLine

def version : String := "seachart 0.1.0"

def help : String :=
  "Generate a MapServer configuration for different kinds of geographical data\n\n" ++
  "Usage: seachart [OPTIONS] <SETTINGS> [FORMAT]\n\n" ++
  "  <SETTINGS>          Chart settings in TOML format\n" ++
  "  [FORMAT]            Format of the data: " ++
  String.intercalate ", " (Format.all.map Format.name) ++ "\n" ++
  "  -f, --force         Overwrite the rule set and existing mapfiles\n" ++
  "      --resources     Directory of the default rule set and presentation library\n" ++
  "  -q, --quiet         Suppress warnings\n" ++
  "  -v, --verbose       Show more, up to three times\n" ++
  "  -h, --help          Show this text\n" ++
  "  -V, --version       Show the version"

inductive Flag where
  | force
  | resources
  | quiet
  | verbose
  | help
  | version
deriving DecidableEq, Repr

def longNames : List (String × Flag) :=
  [("force", .force), ("force-overwrite", .force), ("resources", .resources), ("quiet", .quiet),
    ("verbose", .verbose), ("help", .help), ("version", .version)]

def shortNames : List (Char × Flag) :=
  [('f', .force), ('q', .quiet), ('v', .verbose), ('h', .help), ('V', .version)]

/-- A value that is not settled yet; that of the resources may still be to come. -/
inductive Pending where
  | settingsFile (value : String)
  | format (value : String)
  | resources (value : Option String)
deriving DecidableEq, Repr

structure State where
  settingsFile : Option String := none
  format : Option Format := none
  force : Bool := false
  resources : Option String := none
  quiet : Bool := false
  verbose : Nat := 0
  pending : Option Pending := none
  positional : Nat := 0
deriving Repr

def largestCount : Nat := 255

def State.setResources (s : State) (value : String) : Except UsageError State :=
  if s.resources.isSome then .error .conflict
  else if value = "" then .error .invalidValue
  else .ok { s with resources := some value }

def State.settle (s : State) : Except UsageError State :=
  let t := { s with pending := none }
  match s.pending with
  | none => .ok s
  | some (.settingsFile value) =>
    if value = "" then .error .invalidValue else .ok { t with settingsFile := some value }
  | some (.format value) =>
    match Format.ofName? value with
    | none => .error .invalidValue
    | some f => .ok { t with format := some f }
  | some (.resources none) => .error .invalidValue
  | some (.resources (some value)) => t.setResources value

def State.take (s : State) (f : Flag) : Except UsageError State := do
  let s ← s.settle
  match f with
  | .force => if s.force then .error .conflict else .ok { s with force := true }
  | .quiet => if s.quiet then .error .conflict else .ok { s with quiet := true }
  | .verbose => .ok { s with verbose := min (s.verbose + 1) largestCount }
  | .resources => .ok { s with pending := some (.resources none) }
  | .help => .error .help
  | .version => .error .version

def State.takeLong (s : State) (body : List Char) : Except UsageError State :=
  let (name, value) := body.span (· != '=')
  match longNames.lookup (String.ofList name), value with
  | none, _ => .error .unknownArgument
  | some f, [] => s.take f
  | some .resources, _ :: value => do
    let s ← s.settle
    s.setResources (String.ofList value)
  | some _, _ :: _ => .error .tooManyValues

def State.takeShort (s : State) : List Char → Except UsageError State
  | [] => .ok s
  | c :: cs =>
    match shortNames.lookup c with
    | none => .error .unknownArgument
    | some f => do
      let s ← s.take f
      s.takeShort cs

def State.takePositional (s : State) (value : String) : Except UsageError State :=
  match s.positional with
  | 0 => do
    let s ← s.settle
    return { s with pending := some (.settingsFile value), positional := 1 }
  | 1 => do
    let s ← s.settle
    return { s with pending := some (.format value), positional := 2 }
  | _ => .error .unknownArgument

def State.takeAll (s : State) (onlyPositional : Bool) : List String → Except UsageError State
  | [] => s.settle
  | a :: rest =>
    if onlyPositional then do
      let s ← s.takePositional a
      s.takeAll true rest
    else
      match a.toList with
      | ['-', '-'] => s.takeAll true rest
      | '-' :: '-' :: body => do
        let s ← s.takeLong body
        s.takeAll false rest
      | '-' :: c :: cs => do
        let s ← s.takeShort (c :: cs)
        s.takeAll false rest
      | _ =>
        if s.pending = some (.resources none) then
          { s with pending := some (.resources (some a)) }.takeAll false rest
        else do
          let s ← s.takePositional a
          s.takeAll false rest

def read (usualResources : String) (arguments : List String) : Except UsageError Request := do
  let s ← State.takeAll {} false arguments
  if s.quiet ∧ s.verbose ≠ 0 then .error .conflict
  else
    match s.settingsFile with
    | none => .error .missingArgument
    | some settingsFile =>
      return {
        settingsFile
        format := s.format.getD .chart
        force := s.force
        resources := s.resources.getD usualResources
        quiet := s.quiet
        verbose := s.verbose }

end CommandLine

end SeaChart
