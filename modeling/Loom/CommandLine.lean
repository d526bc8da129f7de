import Loom.Fault

/-! Command lines. A line is cut into tokens at blanks and at runs of semicolons; quotes and
backslashes protect characters, and `#` starts a comment that ends with the line. Tokens made of
semicolons alone separate commands. Writing puts every token in single quotes. -/
namespace Loom.CommandLine

/-- Where the reader stands: between tokens, in a comment, in a word, in a run of semicolons, inside
quotes, or behind a backslash in a word or in quotes. -/
inductive Mode where
  | between
  | comment
  | word
  | separator
  | quote (q : Char)
  | escape (inside : Option Char)
  deriving DecidableEq, Repr

/-- The reader's state: characters and tokens are kept newest first. -/
structure Reader where
  mode : Mode := .between
  token : List Char := []
  tokens : List String := []
  deriving DecidableEq, Repr

def isSpace (c : Char) : Bool := c == ' ' || c == '\t' || c == '\r' || c == '\n'

def isQuote (c : Char) : Bool := c == '\'' || c == '"'

namespace Reader

/-- Close the current token. -/
def close (r : Reader) (mode : Mode) : Reader :=
  { mode, token := [], tokens := String.ofList r.token.reverse :: r.tokens }

def keep (r : Reader) (c : Char) : Reader := { r with token := c :: r.token }

/-- A character between tokens. -/
def enter (r : Reader) (c : Char) : Reader :=
  if isSpace c then { r with mode := .between }
  else if c == '#' then { r with mode := .comment }
  else if c == '\\' then { r with mode := .escape none }
  else if c == ';' then { r with mode := .separator, token := [c] }
  else if isQuote c then { r with mode := .quote c }
  else { r with mode := .word, token := [c] }

/-- Take one character. -/
def feed (r : Reader) (c : Char) : Reader :=
  match r.mode with
  | .between => r.enter c
  | .comment => if c == '\n' then { r with mode := .between } else r
  | .word =>
    if isSpace c then r.close .between
    else if c == '#' then r.close .comment
    else if isQuote c then { r with mode := .quote c }
    else if c == '\\' then { r with mode := .escape none }
    else if c == ';' then (r.close .between).enter c
    else r.keep c
  | .separator =>
    if c == ';' then r.keep c else (r.close .between).enter c
  | .quote q =>
    if c == q then { r with mode := .word }
    else if c == '\\' && q == '"' then { r with mode := .escape (some q) }
    else r.keep c
  | .escape none => { r.keep c with mode := .word }
  | .escape (some q) =>
    if c == '\\' || c == q then { r.keep c with mode := .quote q }
    else { (r.keep '\\').keep c with mode := .quote q }

/-- The tokens once the line has ended. -/
def finish (r : Reader) : Except Fault (List String) :=
  match r.mode with
  | .between | .comment => .ok r.tokens.reverse
  | .word | .separator => .ok (r.close .between).tokens.reverse
  | .quote _ => .error .unclosedQuote
  | .escape _ => .error .danglingEscape

end Reader

/-- The tokens of a line. -/
def tokens (line : String) : Except Fault (List String) :=
  (line.toList.foldl Reader.feed {}).finish

/-- A token made of semicolons alone. -/
def isSeparator (token : String) : Bool := !token.isEmpty && token.toList.all (· == ';')

/-- Group tokens into commands, leaving out empty ones. -/
def group : List String → List String → List (List String)
  | [], [] => []
  | current, [] => [current.reverse]
  | current, t :: ts =>
    if isSeparator t then
      match current with
      | [] => group [] ts
      | current => current.reverse :: group [] ts
    else group (t :: current) ts

/-- The commands of a line, each a list of tokens. -/
def commands (line : String) : Except Fault (List (List String)) :=
  (tokens line).map (group [])

/-- The tokens of a line that holds one command at most. -/
def command (line : String) : Except Fault (List String) := do
  match ← commands line with
  | [] => .ok []
  | [c] => .ok c
  | cs => .error (.notOneCommand cs.length)

/-- A character inside single quotes; the quote itself is written between double quotes. -/
def protect (c : Char) : List Char :=
  if c == '\'' then ['\'', '"', '\'', '"', '\''] else [c]

/-- A token in single quotes. -/
def quoteToken (token : String) : String :=
  String.ofList ('\'' :: (token.toList.flatMap protect ++ ['\'']))

def writeCommand (tokens : List String) : String := " ".intercalate (tokens.map quoteToken)

/-- Commands as one line. -/
def writeLine (commands : List (List String)) : String :=
  ";".intercalate (commands.map writeCommand)

end Loom.CommandLine
