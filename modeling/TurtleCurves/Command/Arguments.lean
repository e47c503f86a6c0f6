import TurtleCurves.Color.Mode
import TurtleCurves.Decimal.Numeral

namespace TurtleCurves

/-!
# Command line arguments

An option is written `--long value`, `--long=value`, `-s value`, `-svalue` or `-s=value`, and at
most once.  A value that is an argument of its own may not begin with a dash, unless it is a dash
alone.  Behind `--` nothing more may follow.

* `Opt` — the options; `Scope` — the commands they belong to;
* `Selection` — the values of the options that were given;
* `Request` — what is asked for;
* `Request.ofArguments` — the request of a list of arguments, or the reason why there is none.
-/

/-! ### Options -/

/-- The options of all commands. -/
inductive Opt where
  | config
  | preset
  | iterations
  | json
  | mode
  | axis
  | size
  | name
  | help
  deriving DecidableEq, Repr

namespace Opt

/-- The long name. -/
def long : Opt → String
  | config => "config"
  | preset => "preset"
  | iterations => "iterations"
  | json => "json"
  | mode => "mode"
  | axis => "axis"
  | size => "size"
  | name => "name"
  | help => "help"

/-- The short name, if there is one: the first letter of the long one. -/
def short? : Opt → Option Char
  | json => none
  | o => o.long.toList.head?

/-- A value belongs to the option. -/
def takesValue : Opt → Bool
  | json | help => false
  | _ => true

end Opt

/-- The places where options can stand: before the command, or behind it. -/
inductive Scope where
  | top
  | gui
  | list
  | stats
  | render
  deriving DecidableEq, Repr

namespace Scope

/-- The commands. -/
def commands : List Scope := [gui, list, stats, render]

/-- The name of a command. -/
def name : Scope → String
  | top => ""
  | gui => "gui"
  | list => "list"
  | stats => "stats"
  | render => "render"

/-- The command of a name. -/
def ofName? (s : String) : Option Scope := commands.find? fun c => c.name == s

/-- The options that can stand in a place. -/
def options : Scope → List Opt
  | top => [.config, .help]
  | gui | list => [.help]
  | stats => [.preset, .iterations, .json, .help]
  | render => [.preset, .iterations, .mode, .axis, .size, .name, .help]

/-- The option of a long name. -/
def long? (s : Scope) (name : List Char) : Option Opt :=
  s.options.find? fun o => o.long.toList == name

/-- The option of a short name. -/
def short? (s : Scope) (c : Char) : Option Opt := s.options.find? fun o => o.short? == some c

end Scope

/-- Why arguments are no request. -/
inductive Usage where
  /-- They ask how to use the program. -/
  | help (scope : Scope)
  /-- No argument is given at all. -/
  | nothing
  /-- An argument has no meaning where it stands. -/
  | unexpected (argument : String)
  /-- An option stands without its value. -/
  | valueMissing (option : Opt)
  /-- A value stands with an option that takes none. -/
  | valueUnexpected (option : Opt)
  /-- An option does not take this value. -/
  | invalid (option : Opt) (value : String)
  /-- An option is given twice. -/
  | repeated (option : Opt)
  /-- An option has to be given. -/
  | required (option : Opt)
  /-- There is no such command. -/
  | unknownCommand (name : String)
  deriving DecidableEq, Repr

/-- The wording of a usage error. -/
def Usage.message : Usage → String
  | .help _ => ""
  | .nothing => "a command is required"
  | .unexpected a => "unexpected argument '" ++ a ++ "' found"
  | .valueMissing o => "a value is required for '--" ++ o.long ++ "' but none was supplied"
  | .valueUnexpected o => "no value is accepted for '--" ++ o.long ++ "'"
  | .invalid o v => "invalid value '" ++ v ++ "' for '--" ++ o.long ++ "'"
  | .repeated o => "the argument '--" ++ o.long ++ "' cannot be used multiple times"
  | .required o => "the required argument '--" ++ o.long ++ "' was not provided"
  | .unknownCommand n => "unrecognized subcommand '" ++ n ++ "'"

/-! ### Values -/

/-- The values of the options that were given. -/
structure Selection where
  config : Option String
  preset : Option String
  iterations : Option Nat
  json : Bool
  mode : Option ColorMode
  axis : Option PositionAxis
  size : Option Nat
  name : Option String
  deriving DecidableEq, Repr

namespace Selection

/-- No option is given. -/
def empty : Selection := ⟨none, none, none, false, none, none, none, none⟩

/-- A count that fits into 32 bits, written with at most one sign. -/
def count? (s : String) : Option Nat :=
  let (negative, digits) := Decimal.takeSign s.toList
  match Decimal.ofDigits? digits with
  | none => none
  | some n => if n < Nat.pow 2 32 ∧ (negative → n = 0) then some n else none

/-- The option is given. -/
def has (s : Selection) : Opt → Bool
  | .config => s.config.isSome
  | .preset => s.preset.isSome
  | .iterations => s.iterations.isSome
  | .json => s.json
  | .mode => s.mode.isSome
  | .axis => s.axis.isSome
  | .size => s.size.isSome
  | .name => s.name.isSome
  | .help => false

/-- The selection with the value of one more option, if the option takes it. -/
def put? (s : Selection) (o : Opt) (value : String) : Option Selection :=
  match o with
  | .config => if value = "" then none else some { s with config := some value }
  | .preset => some { s with preset := some value }
  | .iterations => (count? value).map fun n => { s with iterations := some n }
  | .json => some { s with json := true }
  | .mode => (ColorMode.ofName? value).map fun m => { s with mode := some m }
  | .axis => (PositionAxis.ofName? value).map fun a => { s with axis := some a }
  | .size => (count? value).map fun n => { s with size := some n }
  | .name => some { s with name := some value }
  | .help => some s

/-- The selection with one more option. -/
def add (s : Selection) (o : Opt) (value : String) : Except Usage Selection :=
  match s.put? o value with
  | none => .error (.invalid o value)
  | some s' => if s.has o then .error (.repeated o) else .ok s'

end Selection

/-! ### Reading -/

/-- A value behind a short option: an equals sign in front does not belong to it. -/
def attached : List Char → List Char
  | '=' :: rest => rest
  | cs => cs

/-- What one argument amounts to. -/
inductive Step where
  /-- The options it gives are read. -/
  | done (s : Selection)
  /-- An option still waits for its value. -/
  | awaits (s : Selection) (o : Opt)
  /-- It is no option. -/
  | word
  /-- It ends the options. -/
  | close

/-- An option with its value, if the value is attached. -/
def Selection.take (s : Selection) (o : Opt) (value : Option (List Char)) : Except Usage Step :=
  match value with
  | none => .ok (.awaits s o)
  | some cs => do return .done (← s.add o (String.ofList (attached cs)))

/-- Short options standing together; a value takes the rest of them. -/
def Selection.shortStep (s : Selection) (scope : Scope) : List Char → Except Usage Step
  | [] => .ok (.done s)
  | c :: rest =>
    match scope.short? c with
    | none => .error (.unexpected (String.ofList ['-', c]))
    | some .help => .error (.help scope)
    | some o => s.take o (if rest = [] then none else some rest)

/-- A long option. -/
def Selection.longStep (s : Selection) (scope : Scope) (text : List Char) : Except Usage Step :=
  let name := text.takeWhile (· ≠ '=')
  let value := text.dropWhile (· ≠ '=')
  match scope.long? name with
  | none => .error (.unexpected ("--" ++ String.ofList name))
  | some o =>
    if o.takesValue then s.take o (if value = [] then none else some value)
    else if value ≠ [] then .error (.valueUnexpected o)
    else if o = .help then .error (.help scope)
    else do return .done (← s.add o "")

/-- One argument where an option may stand. -/
def Selection.step (s : Selection) (scope : Scope) (argument : String) : Except Usage Step :=
  match argument.toList with
  | ['-', '-'] => .ok .close
  | '-' :: '-' :: text => s.longStep scope text
  | '-' :: c :: text => s.shortStep scope (c :: text)
  | _ => .ok .word

/-- The argument can be the value of the option before it. -/
def isFreeValue (argument : String) : Bool :=
  match argument.toList with
  | '-' :: _ :: _ => false
  | _ => true

/-- Reads the options of a place; what is left begins with the first argument that is none. -/
def Selection.read (scope : Scope) :
    Selection → List String → Except Usage (Selection × List String)
  | s, [] => .ok (s, [])
  | s, argument :: rest =>
    match s.step scope argument with
    | .error usage => .error usage
    | .ok .word => .ok (s, argument :: rest)
    | .ok .close =>
      match rest with
      | [] => .ok (s, [])
      | next :: _ => .error (.unexpected next)
    | .ok (.done s) => Selection.read scope s rest
    | .ok (.awaits s o) =>
      match rest with
      | [] => .error (.valueMissing o)
      | value :: rest =>
        if isFreeValue value then
          match s.add o value with
          | .error usage => .error usage
          | .ok s => Selection.read scope s rest
        else .error (.valueMissing o)

/-! ### Requests -/

/-- What is drawn into a file. -/
structure Rendering where
  preset : String
  iterations : Nat
  mode : Option ColorMode
  axis : Option PositionAxis
  /-- The sides of the picture, in pixels. -/
  size : Nat
  /-- The name of the files, unless they are named after the preset and the time. -/
  name : Option String
  deriving DecidableEq, Repr

/-- A command with its options. -/
inductive Request where
  /-- Open the window. -/
  | gui
  /-- Name the presets. -/
  | list
  /-- Grow a preset and print its numbers, as text or as JSON. -/
  | stats (preset : String) (iterations : Nat) (json : Bool)
  /-- Grow a preset and draw it. -/
  | render (rendering : Rendering)
  deriving DecidableEq, Repr

namespace Request

/-- The settings file that is read when none is named. -/
def defaultConfig : String := "lsystems.yaml"

/-- The steps that are taken when their number is not given. -/
def defaultIterations : Nat := 3

/-- The sides of a picture when they are not given. -/
def defaultSize : Nat := 800

/-- The preset that has to be named. -/
def presetOf (s : Selection) : Except Usage String :=
  match s.preset with
  | some preset => .ok preset
  | none => .error (.required .preset)

/-- The request of a command with the options behind it. -/
def ofSelection (s : Selection) : Scope → Except Usage Request
  | .top => .error .nothing
  | .gui => .ok .gui
  | .list => .ok .list
  | .stats => do
    return .stats (← presetOf s) (s.iterations.getD defaultIterations) s.json
  | .render => do
    return .render ⟨← presetOf s, s.iterations.getD defaultIterations, s.mode, s.axis,
      s.size.getD defaultSize, s.name⟩

/-- The request of a command and the arguments behind it. -/
def ofCommand (scope : Scope) (arguments : List String) : Except Usage Request := do
  match ← Selection.empty.read scope arguments with
  | (_, extra :: _) => .error (.unexpected extra)
  | (s, []) => ofSelection s scope

/-- What the word `help` asks for. -/
def helpFor : List String → Usage
  | [] => .help .top
  | [name] =>
    if name == "help" then .help .top
    else match Scope.ofName? name with
      | some scope => .help scope
      | none => .unknownCommand name
  | _ :: extra :: _ => .unexpected extra

/-- The request of a list of arguments, with the path of the settings file. -/
def ofArguments (arguments : List String) : Except Usage (String × Request) := do
  if arguments = [] then .error .nothing
  else
    match ← Selection.empty.read .top arguments with
    | (_, []) => .error .nothing
    | (s, command :: rest) =>
      if command = "help" then .error (helpFor rest)
      else
        match Scope.ofName? command with
        | none => .error (.unknownCommand command)
        | some scope => return (s.config.getD defaultConfig, ← ofCommand scope rest)

end Request

end TurtleCurves
