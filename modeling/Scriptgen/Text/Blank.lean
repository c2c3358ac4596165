/-!
# Blanks and lines

Blank characters are those with the White_Space property. Trimming removes them from the
ends of a text, and `lines` cuts a text at its line feeds.
-/

namespace Scriptgen.Text

def isBlank (c : Char) : Bool :=
  let n := c.toNat
  (0x09 ≤ n && n ≤ 0x0D) || n == 0x20 || n == 0x85 || n == 0xA0 || n == 0x1680 ||
    (0x2000 ≤ n && n ≤ 0x200A) || n == 0x2028 || n == 0x2029 || n == 0x202F ||
    n == 0x205F || n == 0x3000

/-- A list without its longest final part in which `p` holds. -/
def dropEndWhile {α : Type} (p : α → Bool) (xs : List α) : List α :=
  (xs.reverse.dropWhile p).reverse

def trimStart (text : String) : String :=
  String.ofList (text.toList.dropWhile isBlank)

def trimEnd (text : String) : String :=
  String.ofList (dropEndWhile isBlank text.toList)

def trim (text : String) : String :=
  trimEnd (trimStart text)

/-- The text without every leading occurrence of `c`. -/
def dropLeading (c : Char) (text : String) : String :=
  String.ofList (text.toList.dropWhile (· == c))

/-- The rest of `cs` after `lead`, if `cs` starts with it. -/
def afterLead? {α : Type} [BEq α] : List α → List α → Option (List α)
  | [], cs => some cs
  | _ :: _, [] => none
  | l :: lead, c :: cs => if l == c then afterLead? lead cs else none

/-- The parts of a list before, between and after the places where `p` holds. -/
def cuts {α : Type} (p : α → Bool) : List α → List (List α)
  | [] => [[]]
  | c :: cs =>
    if p c then [] :: cuts p cs
    else
      match cuts p cs with
      | [] => [[c]]
      | part :: parts => (c :: part) :: parts

/-- A line without the carriage return that ends it. -/
def dropReturn (line : List Char) : List Char :=
  if line.getLast? == some '\r' then line.dropLast else line

/-- The lines of a text. A line ends at a line feed, a carriage return just before that
belongs to the line end, and a final line feed starts no further line. -/
def lineChars (text : List Char) : List (List Char) :=
  let parts := cuts (· == '\n') text
  match parts.getLast? with
  | some [] => parts.dropLast.map dropReturn
  | some last => parts.dropLast.map dropReturn ++ [last]
  | none => []

def lines (text : String) : List String :=
  (lineChars text.toList).map String.ofList

end Scriptgen.Text
