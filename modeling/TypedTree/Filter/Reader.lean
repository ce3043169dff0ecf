import TypedTree.Filter.Basic

/-!
# Reading filters

A filter is written as terms joined by commas, and those by pipes. A term is a point, a word or a
filter in parentheses, with any number of fields and brackets behind it. The reader keeps the
operands of the pipes and commas that are open, for each open parenthesis, and goes over the tokens
once.
-/

namespace TypedTree.Filter

/-- A token of a filter. -/
inductive Token where
  | point
  /-- A point with a name right behind it. -/
  | field (name : String)
  | word (name : String)
  | integer (value : Int)
  | openBracket
  | closeBracket
  | openParen
  | closeParen
  | pipe
  | comma
  | broken
  deriving DecidableEq, Repr

/-- Characters that may stand between tokens. -/
def isGap (c : Char) : Bool := c == ' ' || c == '\t' || c == '\n' || c == '\r'

/-- Characters that may begin a name. -/
def startsName (c : Char) : Bool := c.isAlpha || c == '_'

/-- Characters that may stand in a name. -/
def inName (c : Char) : Bool := c.isAlphanum || c == '_'

/-- The tokens of a filter; nothing is read past characters that begin no token. -/
def tokens : List Char → List Token
  | [] => []
  | c :: rest =>
    if isGap c then tokens rest
    else if c = '.' then
      let name := rest.takeWhile inName
      if name.head?.any startsName then
        .field (String.ofList name) :: tokens (rest.drop name.length)
      else .point :: tokens rest
    else if c = '[' then .openBracket :: tokens rest
    else if c = ']' then .closeBracket :: tokens rest
    else if c = '(' then .openParen :: tokens rest
    else if c = ')' then .closeParen :: tokens rest
    else if c = '|' then .pipe :: tokens rest
    else if c = ',' then .comma :: tokens rest
    else if startsName c then
      let name := rest.takeWhile inName
      .word (String.ofList (c :: name)) :: tokens (rest.drop name.length)
    else if c.isDigit then
      let digits := rest.takeWhile Char.isDigit
      .integer (Nat.ofDigitChars 10 (c :: digits) 0) :: tokens (rest.drop digits.length)
    else if c = '-' then
      let gap := rest.takeWhile isGap
      let digits := (rest.drop gap.length).takeWhile Char.isDigit
      if digits.isEmpty then [.broken]
      else
        .integer (-(Nat.ofDigitChars 10 digits 0 : Int)) ::
          tokens (rest.drop (gap.length + digits.length))
    else [.broken]
termination_by text => text.length
decreasing_by all_goals simp only [List.length_drop, List.length_cons]; omega

/-- What a word stands for. -/
def ofWord (name : String) : Filter :=
  if name = "empty" then .empty
  else if name = "error" then .error
  else if name = "true" then .literal (.bool true)
  else if name = "false" then .literal (.bool false)
  else if name = "null" then .literal .null
  else .undefined name

/-- What has been read since a parenthesis was opened, or since the start. -/
structure Open where
  /-- The operands of pipes before the current one, last first. -/
  piped : List Filter := []
  /-- The operands of commas before the current term, last first. -/
  listed : List Filter := []
  /-- The current term, once it has begun. -/
  term : Option Filter := none

namespace Open

/-- Begins a term where one may stand. -/
def start? (level : Open) (filter : Filter) : Option Open :=
  if level.term.isNone then some { level with term := some filter } else none

/-- Goes on with the current term. -/
def extend? (level : Open) (filter : Filter) : Option Open :=
  level.term.map fun term => { level with term := some (.pipe term filter) }

/-- The commas up to here as one filter. -/
def list? (level : Open) : Option Filter :=
  level.term.map fun term => level.listed.foldl (fun right left => .comma left right) term

/-- The pipes up to here as one filter. -/
def close? (level : Open) : Option Filter :=
  level.list?.map fun last => level.piped.foldl (fun right left => .pipe left right) last

/-- Goes on behind a comma. -/
def comma? (level : Open) : Option Open :=
  level.term.map fun term => { level with listed := term :: level.listed, term := none }

/-- Goes on behind a pipe. -/
def pipe? (level : Open) : Option Open :=
  level.list?.map fun operand => { piped := operand :: level.piped }

end Open

/-- Reads tokens into the innermost of the open levels. -/
def build? (level : Open) (outer : List Open) : List Token → Option Filter
  | [] => if outer.isEmpty then level.close? else none
  | .point :: rest => (level.start? .identity).bind fun level => build? level outer rest
  | .word name :: rest => (level.start? (ofWord name)).bind fun level => build? level outer rest
  | .field name :: rest =>
    ((level.start? (.field name)).orElse fun _ => level.extend? (.field name)).bind
      fun level => build? level outer rest
  | .openBracket :: .closeBracket :: rest =>
    (level.extend? .each).bind fun level => build? level outer rest
  | .openBracket :: .integer position :: .closeBracket :: rest =>
    (level.extend? (.index position)).bind fun level => build? level outer rest
  | .openParen :: rest => if level.term.isNone then build? {} (level :: outer) rest else none
  | .closeParen :: rest =>
    match outer, level.close? with
    | up :: outer, some filter =>
      (up.start? filter).bind fun level => build? level outer rest
    | _, _ => none
  | .comma :: rest => level.comma?.bind fun level => build? level outer rest
  | .pipe :: rest => level.pipe?.bind fun level => build? level outer rest
  | _ => none

/-- The filter that a text writes. -/
def read? (source : String) : Option Filter := build? {} [] (tokens source.toList)

/-- Why a filter gives no list of documents. -/
inductive Failure where
  /-- Its text is no filter. -/
  | malformed
  /-- It uses names without a definition. -/
  | undefinedNames (names : List String)
  /-- It failed behind so many outputs. -/
  | stopped (count : Nat)
  deriving DecidableEq, Repr

namespace Failure

/-- The text of a failure. -/
def text : Failure → String
  | malformed => "jq filter does not parse"
  | undefinedNames names => "jq filter uses undefined names: " ++ ", ".intercalate names
  | stopped count => "jq output " ++ toString count ++ ": failed"

end Failure

/-- What a filter text gives for a document, if it writes a filter without undefined names. -/
def outputs (source : String) (document : Json) : Except Failure Outputs :=
  match read? source with
  | none => .error .malformed
  | some filter =>
    let names := filter.undefinedNames
    if names.isEmpty then .ok (filter.run document) else .error (.undefinedNames names)

/-- The documents of outputs, if no failure came behind them. -/
def Outputs.complete (outputs : Outputs) : Except Failure (List Json) :=
  if outputs.failed then .error (.stopped outputs.documents.length) else .ok outputs.documents

/-- The documents that a filter text gives for a document. -/
def apply (source : String) (document : Json) : Except Failure (List Json) :=
  match outputs source document with
  | .error failure => .error failure
  | .ok outputs => outputs.complete

end TypedTree.Filter
