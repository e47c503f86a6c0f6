import TurtleCurves.Command.Arguments

namespace TurtleCurves

/-!
# Help texts

`Scope.help` — how to use the program, or one of its commands.
-/

namespace Scope

/-- What a command does. -/
def purpose : Scope → String
  | top => "Interactive L-system fractal explorer"
  | gui => "Launch native GUI explorer"
  | list => "List available presets"
  | stats => "Iterate a preset and print sentence metrics"
  | render => "Render a preset to <name>.png and <name>_settings.txt"

/-- How a command is called. -/
def usage : Scope → String
  | top => "lsystem_explorer [OPTIONS] <COMMAND>"
  | gui => "lsystem_explorer gui"
  | list => "lsystem_explorer list"
  | stats => "lsystem_explorer stats [OPTIONS] --preset <PRESET>"
  | render => "lsystem_explorer render [OPTIONS] --preset <PRESET>"

end Scope

namespace Opt

/-- An option with a place for its value. -/
def form (o : Opt) : String :=
  let short := match o.short? with
    | some c => "-" ++ String.singleton c ++ ", "
    | none => "    "
  let value := if o.takesValue then " <" ++ o.long.toUpper ++ ">" else ""
  short ++ "--" ++ o.long ++ value

/-- What an option is for. -/
def purpose : Opt → String
  | config => "Path to lsystems.yaml config [default: lsystems.yaml]"
  | preset => "Preset key"
  | iterations => "Number of grammar steps [default: 3]"
  | json => "Print JSON instead of text"
  | mode => "Color mode (flat, palette-gradient, depth, position, per-symbol)"
  | axis => "Position sub-mode (horizontal, vertical, radial)"
  | size => "Square canvas size in pixels [default: 800]"
  | name => "Output file name without extension"
  | help => "Print help"

end Opt

namespace Scope

/-- Two columns, the first as wide as its longest entry. -/
def columns (rows : List (String × String)) : List String :=
  let width := (rows.map fun r => r.1.length).foldl max 0
  rows.map fun r => "  " ++ r.1.pushn ' ' (width - r.1.length) ++ "  " ++ r.2

/-- The commands with what they do. -/
def commandRows : List (String × String) :=
  commands.map (fun c => (c.name, c.purpose)) ++
    [("help", "Print this message or the help of the given subcommand(s)")]

/-- How to use the program or a command, line by line. -/
def help (s : Scope) : List String :=
  [s.purpose, "", "Usage: " ++ s.usage, ""] ++
  (if s = top then "Commands:" :: columns commandRows ++ [""] else []) ++
  "Options:" :: columns (s.options.map fun o => (o.form, o.purpose))

end Scope

end TurtleCurves
