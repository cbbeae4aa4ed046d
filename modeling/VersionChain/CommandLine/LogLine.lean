import VersionChain.CommandLine.Palette
import VersionChain.Log
import VersionChain.Text.Controls

/-!
# Log lines

How an event is written where the program reports errors: its level and topic in brackets, and its words. Further lines of the
words are indented. In colour the level has a colour of its own and the brackets are dimmed; without, the line holds no control
sequences, not even those that a name brings with it. A sequence that a name leaves open swallows the end of the line, too.
-/

namespace VersionChain

namespace Level

/-- The codes that switch on the emphasis for a level. -/
def codes : Level → String
  | error => "\x1b[1m\x1b[31m"
  | warn => "\x1b[33m"
  | info => "\x1b[32m"
  | debug => "\x1b[34m"
  | trace => "\x1b[36m"

/-- The name of a level, as wide as the widest of them. -/
def column (l : Level) : String := l.name ++ String.ofList (List.replicate (5 - l.name.length) ' ')

end Level

namespace Event

/-- The words of an event, every line but the first one indented. -/
def indented (e : Event) : String :=
  String.ofList (e.text.toList.flatMap fun c => if c == '\n' then ['\n', ' ', ' ', ' ', ' '] else [c])

/-- The line for an event, with its end. -/
def line (e : Event) (p : Palette) : String :=
  let subtle := p.paint "\x1b[90m"
  let written :=
    subtle "[" ++ p.paint e.level.codes e.level.column ++ " " ++ e.topic.path ++ subtle "]" ++ " " ++ e.indented ++ "\n"
  if p.isColored then written else Text.Controls.leftOut written

end Event

end VersionChain
