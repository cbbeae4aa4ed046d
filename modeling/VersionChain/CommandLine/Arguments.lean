import VersionChain.CommandLine.Advice
import VersionChain.CommandLine.Palette
import VersionChain.Files.Path

/-!
# Arguments

What the words of a command line ask for. A line has a command with one operand, options of the command and options that may also
stand before it. Words are read from left to right, and the first one that breaks the rules or asks for help decides.
-/

namespace VersionChain

/-- The options. -/
inductive Switch where
  | color
  | logLevel
  | configuration
  | cacheRoot
  | json
  | help
  | version
deriving DecidableEq

namespace Switch

/-- Whether an option has a value. -/
def takesValue : Switch → Bool
  | color => true
  | logLevel => true
  | configuration => true
  | cacheRoot => true
  | _ => false

/-- Whether the value of an option is a path, which is never empty. -/
def isPath : Switch → Bool
  | configuration => true
  | cacheRoot => true
  | _ => false

end Switch

/-- Why the words of a command line are no command. -/
inductive Stop where
  | misuse
  | help
  | version
deriving DecidableEq

/-- The options that are known at one level of a command line. -/
structure Grammar where
  long : List (String × Switch)
  short : List (Char × Switch)

namespace Grammar

/-- The options that are known everywhere. -/
def common : List (String × Switch) := [("color", .color), ("log-level", .logLevel), ("help", .help)]

/-- The options before the command. -/
def main : Grammar := ⟨common ++ [("version", .version)], [('h', .help), ('V', .version)]⟩

/-- The options of `versions`. -/
def versions : Grammar :=
  ⟨common ++ [("config", .configuration), ("cache-root", .cacheRoot)], [('h', .help), ('c', .configuration)]⟩

/-- The options of `resolve`. -/
def resolve : Grammar := { versions with long := versions.long ++ [("json", .json)] }

end Grammar

/-- What a word, perhaps with the next one, is. -/
inductive Item where
  | setting (s : Switch) (value : String)
  | operand (text : String)
  /-- The mark after which every word is an operand. -/
  | endOfOptions

/-- The options that were given, with their values. -/
abbrev Settings := List (Switch × String)

namespace Settings

/-- The settings with one more, which must not be there yet. -/
def give (settings : Settings) (s : Switch) (value : String) : Except Stop Settings :=
  match s with
  | .help => .error .help
  | .version => .error .version
  | _ =>
    if (settings.lookup s).isSome || (s.isPath && value.isEmpty) then .error .misuse else .ok (settings ++ [(s, value)])

end Settings

namespace Item

/-- Whether a word is taken for an option wherever it stands. -/
def looksLikeOption (word : String) : Bool := word.startsWith "-" && word != "-"

/-- An option with the value attached to it or else the next word, and whether that word was taken. -/
def ofSwitch (s : Switch) (attached next : Option String) : Except Stop (Item × Bool) :=
  if s.takesValue then
    match attached, next with
    | some value, _ => .ok (.setting s value, false)
    | none, some value => if looksLikeOption value then .error .misuse else .ok (.setting s value, true)
    | none, none => .error .misuse
  else if attached.isSome then .error .misuse
  else .ok (.setting s "", false)

/-- Reads a word, given the next one, and tells whether that one was taken too. -/
def read (g : Grammar) (word : String) (next : Option String) : Except Stop (Item × Bool) :=
  match word.toList with
  | ['-', '-'] => .ok (.endOfOptions, false)
  | '-' :: '-' :: cs =>
    match g.long.lookup (String.ofList (cs.takeWhile (· != '='))) with
    | some s => ofSwitch s (if '=' ∈ cs then some (String.ofList (cs.dropWhile (· != '=')).tail) else none) next
    | none => .error .misuse
  | '-' :: c :: cs =>
    match g.short.lookup c with
    | some s =>
      if s.takesValue then
        ofSwitch s (if cs.isEmpty then none else some (String.ofList (if cs.head? == some '=' then cs.tail else cs))) next
      else .ok (.setting s "", false)
    | none => .error .misuse
  | _ => .ok (.operand word, false)

end Item

/-- The words after an item, which may have taken the first of them. -/
def afterItem (tookNext : Bool) (rest : List String) : List String := if tookNext then rest.tail else rest

theorem length_afterItem_le (tookNext : Bool) (rest : List String) : (afterItem tookNext rest).length ≤ rest.length := by
  unfold afterItem
  split <;> simp

/-- Reads the words after a command: its options and its operand. -/
def readCommand (g : Grammar) (settings : Settings) (operand : Option String) (words : List String) :
    Except Stop (Settings × String) :=
  match words with
  | [] =>
    match operand with
    | some operand => .ok (settings, operand)
    | none => .error .misuse
  | word :: rest =>
    match Item.read g word rest.head? with
    | .error stop => .error stop
    | .ok (.setting s value, tookNext) =>
      match settings.give s value with
      | .error stop => .error stop
      | .ok settings =>
        have _ := length_afterItem_le tookNext rest
        readCommand g settings operand (afterItem tookNext rest)
    | .ok (.operand text, _) => if operand.isSome then .error .misuse else readCommand g settings (some text) rest
    | .ok (.endOfOptions, _) =>
      match operand, rest with
      | none, [text] => .ok (settings, text)
      | some operand, [] => .ok (settings, operand)
      | _, _ => .error .misuse
termination_by words.length

/-- What is to be done. -/
inductive Command where
  /-- Resolves a request, perhaps with a result in JSON. -/
  | resolve (coordinate : String) (json : Bool)
  /-- Shows the versions of a module. -/
  | versions (coordinate : String)
deriving DecidableEq

/-- A command with everything that was said about how to do it. -/
structure Invocation where
  command : Command
  color : String
  logLevel : String
  configuration : Files.Path
  /-- The directory for caches, if one was named. -/
  cacheRoot : Option Files.Path
deriving DecidableEq

namespace Invocation

/-- The invocation that the options before and after the name of a command amount to. Those after it count more. -/
def ofSettings (before after : Settings) (env : Environment) (command : Command) : Except Stop Invocation := do
  let given (s : Switch) (default : String) := ((after.lookup s).or (before.lookup s)).getD default
  let cacheRoot ←
    match after.lookup .cacheRoot, env.lookup Advice.cacheVariable with
    | some root, _ => pure (some root)
    | none, some root => if root.isEmpty then .error .misuse else pure (some root)
    | none, none => pure none
  return {
    command
    color := given .color "auto"
    logLevel := given .logLevel "warn"
    configuration := ⟨given .configuration Advice.defaultConfiguration⟩
    cacheRoot := cacheRoot.map Files.Path.mk }

/-- Whether the words after `help` name something there is help about. -/
def isTopic : List String → Bool
  | [] => true
  | [topic] => topic ∈ ["resolve", "versions", "help"]
  | _ => false

/-- Reads the words of a command line, given the options before the command that were read already. -/
def ofWords (env : Environment) (before : Settings) (words : List String) : Except Stop Invocation :=
  match words with
  | [] => .error .misuse
  | word :: rest =>
    match Item.read .main word rest.head? with
    | .error stop => .error stop
    | .ok (.setting s value, tookNext) =>
      match before.give s value with
      | .error stop => .error stop
      | .ok before =>
        have _ := length_afterItem_le tookNext rest
        ofWords env before (afterItem tookNext rest)
    | .ok (.endOfOptions, _) => .error .misuse
    | .ok (.operand name, _) =>
      match name with
      | "resolve" => do
        let (after, operand) ← readCommand .resolve [] none rest
        ofSettings before after env (.resolve operand (after.lookup .json).isSome)
      | "versions" => do
        let (after, operand) ← readCommand .versions [] none rest
        ofSettings before after env (.versions operand)
      | "help" => .error (if isTopic rest then .help else .misuse)
      | _ => .error .misuse
termination_by words.length

/-- Reads a command line. -/
def ofArguments (words : List String) (env : Environment) : Except Stop Invocation := ofWords env [] words

end Invocation

end VersionChain
