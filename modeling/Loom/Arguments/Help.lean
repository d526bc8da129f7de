import Loom.Arguments.Read
import Loom.Text.Space

/-! Usage lines and help pages of forms. -/
namespace Loom.Arguments

/-- The width of a page. -/
def pageWidth : Nat := 78

/-- The column at which explanations begin, at most. -/
def maxHelpColumn : Nat := 24

/-- Drop line breaks from both ends, and let at most two follow each other in between. -/
def tidy (s : String) : String :=
  String.ofList (squeeze 0 (Text.trimBy (· == '\n') s.toList)) ++ "\n"
where
  squeeze (breaks : Nat) : List Char → List Char
    | [] => []
    | '\n' :: rest => if breaks < 2 then '\n' :: squeeze (breaks + 1) rest else squeeze breaks rest
    | c :: rest => c :: squeeze 0 rest

namespace Form

/-- The arguments as they can be used. -/
def uses (f : Form) : List String :=
  f.switches.map (fun s => "[" ++ s.use (s.names.headD "") ++ "]")
    ++ f.operand.toList.map fun o => "[" ++ o.placeholder ++ "]"

def usageText (f : Form) : String :=
  let lead := "usage: "
  let line := lead ++ " ".intercalate (f.command :: f.uses)
  if f.uses.isEmpty || line.length ≤ pageWidth then line
  else
    let margin := lead.length + f.command.length + 1
    lead ++ ("\n" ++ Text.indent margin).intercalate
      (Text.fill pageWidth lead.length margin (f.command :: f.uses))

/-- The usage as printed. -/
def usagePage (f : Form) : String := tidy f.usageText

/-- The usage without the word that leads it. -/
def usage (f : Form) : String :=
  let text := Text.trim f.usagePage
  if "usage: ".isPrefixOf text then String.ofList (text.toList.drop "usage: ".length) else text

/-- The headings and explanations of the arguments. -/
def operandEntries (f : Form) : List (String × String) := f.operand.toList.map fun o => (o.placeholder, o.help)

def switchEntries (f : Form) : List (String × String) :=
  f.switches.map fun s => (", ".intercalate (s.names.map s.use), s.help)

/-- The column at which this form's explanations begin. -/
def helpColumn (f : Form) : Nat :=
  let widest := (f.operandEntries ++ f.switchEntries).foldl (fun n e => max n e.1.length) 0
  min (widest + 4) maxHelpColumn

/-- One argument and its explanation. A long heading stands on a line of its own. -/
def entry (column : Nat) (e : String × String) : String :=
  let lines := Text.fill (pageWidth - column) 0 0 (Text.words e.2)
  let body := ("\n" ++ Text.indent column).intercalate lines
  if e.1.length + 4 ≤ column then
    "  " ++ e.1 ++ Text.indent (column - 2 - e.1.length) ++ body ++ "\n"
  else "  " ++ e.1 ++ "\n" ++ Text.indent column ++ body ++ "\n"

def group (column : Nat) (title : String) : List (String × String) → String
  | [] => ""
  | entries => "\n" ++ title ++ ":\n" ++ String.join (entries.map (entry column))

/-- The help page. -/
def helpPage (f : Form) : String :=
  tidy (f.usageText ++ "\n\n" ++ "\n".intercalate (Text.fill pageWidth 0 0 (Text.words f.summary)) ++ "\n"
    ++ group f.helpColumn "positional arguments" f.operandEntries
    ++ group f.helpColumn "options" f.switchEntries)

/-- A complaint as printed. -/
def complaintPage (f : Form) (c : Complaint) : String :=
  f.usagePage ++ f.command ++ ": error: " ++ c.message ++ "\n"

end Form

end Loom.Arguments
