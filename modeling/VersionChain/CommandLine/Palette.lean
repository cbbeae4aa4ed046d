import VersionChain.CommandLine.Surroundings

/-!
# Palettes

Whether the output is coloured, and how coloured text is written. What the user asks for comes first, then the environment, then
whether the output goes to a terminal that shows colours.
-/

namespace VersionChain

/-- How text is emphasized in the output. -/
structure Palette where
  isColored : Bool
deriving DecidableEq

namespace Palette

/-- Whether an environment wants colours. The first variable that decides counts. -/
def wanted (env : Environment) (onTerminal : Bool) : Bool :=
  if (env.lookup "NO_COLOR").isSome || env.lookup "CLICOLOR" == some "0" then false
  else if (env.lookup "CLICOLOR_FORCE").any fun v => v != "0" && v != "" then true
  else onTerminal && (env.lookup "TERM").any (· != "dumb")

/-- The palette for a request, `always`, `never` or anything else to let the environment decide. The case of ASCII letters does
not count. -/
def choose (request : String) (env : Environment) (onTerminal : Bool) : Palette :=
  match request.map Char.toLower with
  | "always" => ⟨true⟩
  | "never" => ⟨false⟩
  | _ => ⟨wanted env onTerminal⟩

/-- The palette of the log, on which only the environment and the terminal decide. Here a variable without a value does not
count, and one that asks for colours needs no particular value. -/
def ofLog (env : Environment) (onTerminal : Bool) : Palette where
  isColored :=
    let given (name : String) := (env.lookup name).any (· != "")
    if given "NO_COLOR" then false
    else if given "CLICOLOR_FORCE" then true
    else if env.lookup "CLICOLOR" == some "0" then false
    else onTerminal && ((env.lookup "TERM").any (· != "dumb") || (env.lookup "CLICOLOR").isSome || (env.lookup "CI").isSome)

/-- A text between the codes that switch an emphasis on and off. -/
def paint (p : Palette) (codes text : String) : String :=
  if p.isColored then codes ++ text ++ "\x1b[0m" else text

/-- A version or repository that was chosen. -/
def highlight (p : Palette) (text : String) : String := p.paint "\x1b[32m\x1b[1m" text

/-- A detail of less interest. -/
def dim (p : Palette) (text : String) : String := p.paint "\x1b[2m" text

/-- A marker at the start of a line, a symbol in colour and a word without. -/
def marker (p : Palette) (symbol word : String) : String := if p.isColored then symbol else word

end Palette

end VersionChain
