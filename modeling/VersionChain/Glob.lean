/-!
# Glob patterns

A pattern over whole texts: `?` stands for any character, `*` for any text, `**` as a whole path component for any run of path
components, `[…]` for one character of a class and `[!…]` for one outside it. A class lists characters and ranges; its first
character is always a member, so `[]]` is the class of the closing bracket. Case counts, and `*` crosses slashes.
-/

namespace VersionChain.Glob

/-- One entry of a character class: a range of code points, a single character being a range of one. -/
structure Range where
  first : Char
  last : Char
deriving DecidableEq

/-- Whether a character lies in a range. -/
def Range.contains (r : Range) (c : Char) : Bool := r.first ≤ c && c ≤ r.last

/-- The elements of a pattern. -/
inductive Token where
  | literal (c : Char)
  | anyChar
  | within (ranges : List Range)
  | except (ranges : List Range)
  | anyText
  | anyFolders
deriving DecidableEq

/-- Why a text is not a pattern. -/
inductive Fault where
  /-- More than two stars in a row. -/
  | wildcards
  /-- Two stars that share their path component with something else. -/
  | recursiveWildcards
  /-- A class that is empty or not closed. -/
  | invalidRange
deriving DecidableEq

/-- The words for a fault. -/
def Fault.message : Fault → String
  | wildcards => "wildcards are either regular `*` or recursive `**`"
  | recursiveWildcards => "recursive wildcards must form a single path component"
  | invalidRange => "invalid range pattern"

/-- A fault and the character position at which the text stops being a pattern. -/
structure Error where
  position : Nat
  fault : Fault
deriving DecidableEq

/-- The words for an error. -/
def Error.message (e : Error) : String :=
  "Pattern syntax error near position " ++ toString e.position ++ ": " ++ e.fault.message

/-- The entries of a class: `a-z` is a range, any other character stands for itself. -/
def ranges : List Char → List Range
  | a :: '-' :: z :: rest => ⟨a, z⟩ :: ranges rest
  | c :: rest => ⟨c, c⟩ :: ranges rest
  | [] => []

/-- The class that opens a text after its bracket: whether it is negated, its characters and the text after its end. -/
def class? : List Char → Option (Bool × List Char × List Char)
  | '!' :: c :: rest =>
    if ']' ∈ rest then some (true, c :: rest.takeWhile (· != ']'), (rest.dropWhile (· != ']')).tail) else none
  | '!' :: [] => none
  | c :: rest =>
    if ']' ∈ rest then some (false, c :: rest.takeWhile (· != ']'), (rest.dropWhile (· != ']')).tail) else none
  | [] => none

/-- What is left after a class is shorter than what was there before it. -/
theorem length_lt_of_class? {cs : List Char} {negated : Bool} {members rest : List Char}
    (h : class? cs = some (negated, members, rest)) : rest.length < cs.length := by
  have hd : ∀ l : List Char, (l.dropWhile (· != ']')).tail.length ≤ l.length := fun l => by
    have := (List.dropWhile_sublist (· != ']') (l := l)).length_le
    rw [List.length_tail]; omega
  unfold class? at h
  split at h
  · split at h
    · simp only [Option.some.injEq, Prod.mk.injEq] at h
      rw [← h.2.2]; have := hd ‹_›; simp only [List.length_cons]; omega
    · simp at h
  · simp at h
  · split at h
    · simp only [Option.some.injEq, Prod.mk.injEq] at h
      rw [← h.2.2]; have := hd ‹_›; simp only [List.length_cons]; omega
    · simp at h
  · simp at h

/-- Reads the elements of a pattern from the given position on, `previous` being the character before it. -/
def tokens (position : Nat) (previous : Option Char) (cs : List Char) : Except Error (List Token) :=
  match cs with
  | [] => .ok []
  | '?' :: rest => do return .anyChar :: (← tokens (position + 1) (some '?') rest)
  | '*' :: '*' :: '*' :: _ => .error ⟨position + 2, .wildcards⟩
  | '*' :: '*' :: rest =>
    if previous == none || previous == some '/' then
      match rest with
      | [] => .ok [.anyFolders]
      | '/' :: rest => do return .anyFolders :: (← tokens (position + 3) (some '/') rest)
      | _ :: _ => .error ⟨position + 2, .recursiveWildcards⟩
    else .error ⟨position - 1, .recursiveWildcards⟩
  | '*' :: rest => do return .anyText :: (← tokens (position + 1) (some '*') rest)
  | '[' :: cs =>
    match h : class? cs with
    | some (negated, members, rest) => do
      let token := if negated then Token.except (ranges members) else .within (ranges members)
      return token :: (← tokens (position + (cs.length + 1 - rest.length)) (some ']') rest)
    | none => .error ⟨position, .invalidRange⟩
  | c :: rest => do return .literal c :: (← tokens (position + 1) (some c) rest)
termination_by cs.length
decreasing_by
  all_goals simp_wf
  all_goals first | omega | (have shorter := length_lt_of_class? h; omega)

/-- A text read as a pattern. -/
structure Pattern where
  tokens : List Token
deriving DecidableEq

/-- Reads a pattern. -/
def Pattern.ofText (text : String) : Except Error Pattern := do
  return ⟨← Glob.tokens 0 none text.toList⟩

/-- A text and what is left of it after each of its characters in turn. -/
def suffixes : List Char → List (List Char)
  | [] => [[]]
  | c :: cs => (c :: cs) :: suffixes cs

/-- What is left of a text after each of its slashes. -/
def afterSlashes : List Char → List (List Char)
  | [] => []
  | c :: cs => if c = '/' then cs :: afterSlashes cs else afterSlashes cs

/-- Whether an element that stands for one character stands for this one. -/
def Token.admits : Token → Char → Bool
  | literal c, d => c == d
  | anyChar, _ => true
  | within rs, d => rs.any (·.contains d)
  | except rs, d => !rs.any (·.contains d)
  | anyText, _ => false
  | anyFolders, _ => false

/-- Whether a sequence of elements matches a whole text. Folders end with a slash, or with the text. The answer is none when the
text does not match but a part of it cut off at its front might leave one that does; it is no when the text is too short for that.
So the first answer that an element for many characters gets at one of its ends is final. -/
def attempt : List Token → List Char → Option Bool
  | [], cs => if cs.isEmpty then some true else none
  | .anyText :: ts, cs => (suffixes cs).findSome? (attempt ts)
  | .anyFolders :: ts, cs => (cs :: (afterSlashes cs ++ [[]])).findSome? (attempt ts)
  | _ :: _, [] => some false
  | t :: ts, c :: cs => if t.admits c then attempt ts cs else none

/-- Whether a pattern matches a whole text. -/
def Pattern.admits (p : Pattern) (text : String) : Bool := attempt p.tokens text.toList == some true

end VersionChain.Glob
