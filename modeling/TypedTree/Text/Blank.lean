/-!
# Blank characters and lines

The characters that Unicode counts as white space, and the lines of a text.
-/

namespace TypedTree.Text

/-- Characters of the Unicode property `White_Space`. -/
def isBlank (c : Char) : Bool :=
  let n := c.toNat
  (9 ≤ n && n ≤ 13) || n == 0x20 || n == 0x85 || n == 0xA0 || n == 0x1680 ||
    (0x2000 ≤ n && n ≤ 0x200A) || n == 0x2028 || n == 0x2029 || n == 0x202F || n == 0x205F ||
    n == 0x3000

/-- A line without the carriage return in front of its line feed. -/
def dropReturn (line : List Char) : List Char :=
  if line.getLast? == some '\r' then line.dropLast else line

/-- The lines of a text. A line feed ends a line, and none begins behind the last one. -/
def lines (text : List Char) : List (List Char) := go [] text
where
  /-- The lines of a text whose first line goes on behind some characters, last first. -/
  go (begun : List Char) : List Char → List (List Char)
    | [] => if begun.isEmpty then [] else [begun.reverse]
    | '\n' :: rest => dropReturn begun.reverse :: go [] rest
    | c :: rest => go (c :: begun) rest

end TypedTree.Text
