/-! White space, and lines filled with words. `isBlank` is the class that trimming removes; `isAsciiBlank` is
the part of it that number texts may be padded with. -/
namespace Loom.Text

/-- Tab, line feed, vertical tab, form feed, carriage return and space. -/
def isAsciiBlank (c : Char) : Bool := c.toNat == 32 || (9 ≤ c.toNat && c.toNat ≤ 13)

/-- The white space of Unicode and the four information separators. -/
def isBlank (c : Char) : Bool :=
  let n := c.toNat
  isAsciiBlank c || (0x1c ≤ n && n ≤ 0x1f) || n == 0x85 || n == 0xa0 || n == 0x1680 ||
    (0x2000 ≤ n && n ≤ 0x200a) || n == 0x2028 || n == 0x2029 || n == 0x202f || n == 0x205f || n == 0x3000

/-- Drop the characters of a class from both ends. -/
def trimBy (p : Char → Bool) (cs : List Char) : List Char :=
  ((cs.dropWhile p).reverse.dropWhile p).reverse

def trimEnd (s : String) : String := String.ofList (s.toList.reverse.dropWhile isBlank).reverse

def trim (s : String) : String := String.ofList (trimBy isBlank s.toList)

/-- The words of a text, parted by spaces. -/
def words (s : String) : List String := (s.splitOn " ").filter (!·.isEmpty)

/-- Blanks. -/
def indent (n : Nat) : String := String.ofList (List.replicate n ' ')

/-- Fill lines greedily: a word stays on the line as long as the line keeps within the width, and no
line is left empty. The first line begins at column `first`, the others at column `later`. -/
def fill (width first later : Nat) (words : List String) : List String :=
  go first [] words
where
  go (column : Nat) (line : List String) : List String → List String
    | [] => if line.isEmpty then [] else [" ".intercalate line]
    | w :: rest =>
      if line.isEmpty then go (column + w.length) [w] rest
      else if width < column + 1 + w.length then
        " ".intercalate line :: go (later + w.length) [w] rest
      else go (column + 1 + w.length) (line ++ [w]) rest

end Loom.Text
