import TypedTree.Text.Unprintable

/-!
# Quoted text

A text is quoted for a message: it stands in double quotes, the usual controls have short escapes,
and every other character without a printed form is spelled by its code point in hexadecimal.
-/

namespace TypedTree.Text

/-- The escape of one character inside double quotes. -/
def escape (c : Char) : List Char :=
  match c with
  | '\x00' => ['\\', '0']
  | '\t' => ['\\', 't']
  | '\r' => ['\\', 'r']
  | '\n' => ['\\', 'n']
  | '"' => ['\\', '"']
  | '\\' => ['\\', '\\']
  | _ =>
    if isUnprintable c then
      ['\\', 'u', '\x7b'] ++ Nat.toDigits 16 c.toNat ++ ['\x7d']
    else [c]

/-- A text between double quotes, with every character escaped as `escape` says. -/
def quoted (text : String) : String :=
  String.ofList ('"' :: text.toList.flatMap escape ++ ['"'])

end TypedTree.Text
