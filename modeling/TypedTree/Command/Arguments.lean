import TypedTree.Command.Basic

/-!
# Arguments

A command is written as a word and options behind it. An option begins with two dashes and its
name, and some have a short form of one dash and a letter. The value of an option is attached with
an equals sign, or to the letter, or follows as the next argument. An option that takes values
from further arguments waits for them and is settled only when the next option comes or the
arguments end; until then an unknown argument is the graver fault.
-/

namespace TypedTree

/-- Why arguments lead to advice on usage instead of a command. -/
inductive Usage where
  /-- The arguments ask for help. -/
  | help
  /-- There is no command. -/
  | noCommand
  | unknownCommand (word : String)
  | unknownArgument (word : String)
  /-- Options exclude each other, or one is given again. -/
  | conflict
  /-- An option is missing. -/
  | missingArgument
  /-- An option has no value. -/
  | missingValue
  /-- The value of an option cannot be read. -/
  | invalidValue
  /-- An option has a value and takes none. -/
  | unwantedValue
  deriving DecidableEq, Repr

/-- The text of the advice. -/
def Usage.text : Usage → String
  | help => "resolve schema definitions and convert documents by them"
  | noCommand => "one of the commands schema and convert is required"
  | unknownCommand word => "unknown command " ++ Text.quoted word
  | unknownArgument word => "unexpected argument " ++ Text.quoted word
  | conflict => "options exclude each other or are given more than once"
  | missingArgument => "a required option is missing"
  | missingValue => "an option lacks its value"
  | invalidValue => "the value of an option cannot be read"
  | unwantedValue => "an option takes no value"

/-- What an option sets. -/
inductive Setting where
  | document
  | definition
  | kind
  | budget
  | out
  | linewise
  | pointer
  | filter
  | input
  | roundTrip
  | help
  deriving DecidableEq, Repr

namespace Setting

/-- Whether an option stands alone, without a value. -/
def isFlag : Setting → Bool
  | linewise | roundTrip | help => true
  | _ => false

/-- Whether an option takes any number of values, and may be given again. -/
def isOpenEnded : Setting → Bool
  | input => true
  | _ => false

/-- The budget that a text writes: digits, perhaps behind a plus sign, within 64 bits. -/
def budget? (text : String) : Option Nat :=
  let digits :=
    match text.toList with
    | '+' :: rest => rest
    | chars => chars
  if digits.isEmpty || !digits.all Char.isDigit then none
  else
    let value := Nat.ofDigitChars 10 digits 0
    if value < 0x10000000000000000 then some value else none

/-- The fault of a value. Paths must not be empty, and budgets must be numerals. -/
def fault? (setting : Setting) (value : String) : Option Usage :=
  match setting with
  | document | out => if value = "" then some .missingValue else none
  | budget => if (budget? value).isNone then some .invalidValue else none
  | _ => none

end Setting

/-- The word that names a command. -/
inductive Verb where
  | schema
  | convert
  deriving DecidableEq, Repr

namespace Verb

/-- The option of a name. -/
def long? (verb : Verb) (name : String) : Option Setting :=
  match name with
  | "document" => some .document
  | "definition" => some .definition
  | "gvk" => some .kind
  | "depth-budget" => some .budget
  | "out" => some .out
  | "help" => some .help
  | "ndjson" => if verb = convert then some .linewise else none
  | "json-pointer" => if verb = convert then some .pointer else none
  | "jq-expr" => if verb = convert then some .filter else none
  | "input" => if verb = convert then some .input else none
  | "round-trip" => if verb = convert then some .roundTrip else none
  | _ => none

/-- The option of a letter. -/
def short? (verb : Verb) (letter : Char) : Option Setting :=
  match letter with
  | 'o' => some .out
  | 'h' => some .help
  | 'i' => if verb = convert then some .input else none
  | _ => none

end Verb

/-- An argument by its form. -/
inductive Argument where
  /-- Two dashes alone; no option follows behind them. -/
  | separator
  /-- The name of an option, perhaps with a value. -/
  | long (name : String) (value : Option String)
  /-- The letter of an option, and what is attached to it. -/
  | short (letter : Char) (rest : List Char)
  | word
  deriving DecidableEq, Repr

/-- The form of an argument. -/
def Argument.ofText (text : String) : Argument :=
  match text.toList with
  | ['-', '-'] => separator
  | '-' :: '-' :: option =>
    let name := String.ofList (option.takeWhile (· != '='))
    match option.dropWhile (· != '=') with
    | [] => long name none
    | _ :: value => long name (some (String.ofList value))
  | '-' :: letter :: rest => short letter rest
  | _ => word

/-- The value attached to the letter of an option; an equals sign between them is left out. -/
def Argument.attached? : List Char → Option String
  | [] => none
  | '=' :: value => some (String.ofList value)
  | value => some (String.ofList value)

/-- Options that are settled, in order, and the one that still waits for values. -/
structure Given where
  settled : List (Setting × List String) := []
  pending : Option (Setting × List String) := none

namespace Given

/-- The values of an option, of all the times that it is given. -/
def values (given : Given) (setting : Setting) : List String :=
  given.settled.flatMap fun entry => if entry.1 = setting then entry.2 else []

/-- Whether an option is given. -/
def has (given : Given) (setting : Setting) : Bool :=
  given.settled.any fun entry => entry.1 = setting

/-- The single value of an option. -/
def value? (given : Given) (setting : Setting) : Option String := (given.values setting).head?

/-- Settles an option with its values. -/
def settle (given : Given) (setting : Setting) (values : List String) : Except Usage Given :=
  if !setting.isFlag && values.isEmpty then .error .missingValue
  else if !setting.isOpenEnded && given.has setting then .error .conflict
  else
    match values.findSome? setting.fault? with
    | some fault => .error fault
    | none => .ok { settled := given.settled ++ [(setting, values)] }

/-- Settles the option that waits for values. -/
def close (given : Given) : Except Usage Given :=
  match given.pending with
  | none => .ok given
  | some (setting, values) => settle { given with pending := none } setting values

/-- Takes a word as a value of the option that waits for one. -/
def take? (given : Given) (word : String) : Option Given :=
  match given.pending with
  | none => none
  | some (setting, values) =>
    if setting.isOpenEnded || values.isEmpty then
      some { given with pending := some (setting, values ++ [word]) }
    else none

/-- Begins an option, which is settled at once if its value is attached or it takes none. -/
def option (given : Given) (setting : Setting) (attached : Option String) : Except Usage Given :=
  if setting.isFlag && attached.isSome then .error .unwantedValue
  else
    match given.close with
    | .error fault => .error fault
    | .ok given =>
      match attached with
      | some value => given.settle setting [value]
      | none =>
        if setting = .help then .error .help
        else if setting.isFlag then given.settle setting []
        else .ok { given with pending := some (setting, []) }

/-- Reads the arguments behind the word of a command. -/
def read (verb : Verb) (given : Given) : List String → Except Usage Given
  | [] => given.close
  | text :: rest =>
    match Argument.ofText text with
    | .separator =>
      match rest with
      | [] => given.close
      | word :: _ => .error (.unknownArgument word)
    | .long name attached =>
      match verb.long? name with
      | none => .error (.unknownArgument text)
      | some setting =>
        match given.option setting attached with
        | .error fault => .error fault
        | .ok given => given.read verb rest
    | .short letter more =>
      match verb.short? letter with
      | none => .error (.unknownArgument text)
      | some setting =>
        let attached := if setting = .help then none else Argument.attached? more
        match given.option setting attached with
        | .error fault => .error fault
        | .ok given => given.read verb rest
    | .word =>
      match given.take? text with
      | none => .error (.unknownArgument text)
      | some given => given.read verb rest

/-- The target that options name. -/
def target? (given : Given) : Option Target :=
  match given.value? .definition with
  | some id => some (.definition id)
  | none => (given.value? .kind).map .kind

/-- The lookup that options describe. -/
def lookup? (given : Given) : Option Lookup := do
  let document ← given.value? .document
  let target ← given.target?
  let budget := ((given.value? .budget).bind Setting.budget?).getD Schema.defaultBudget
  some { document, target, budget }

/-- The command that options describe. -/
def command (given : Given) (verb : Verb) : Except Usage Command :=
  let out := given.value? .out
  let inputs := given.values .input
  if given.has .definition && given.has .kind then .error .conflict
  else
    match given.lookup? with
    | none => .error .missingArgument
    | some lookup =>
      match verb with
      | .schema => .ok (.schema lookup out)
      | .convert =>
        if inputs.isEmpty then .error .missingArgument
        else
          let selection : Selection :=
            { linewise := given.has .linewise, pointer := given.value? .pointer,
              filter := given.value? .filter }
          let mode := if given.has .roundTrip then Mode.roundTrip else .wire
          .ok (.convert lookup inputs selection mode out)

end Given

namespace Command

/-- The word of a command. -/
def verb? (word : String) : Option Verb :=
  match word with
  | "schema" => some .schema
  | "convert" => some .convert
  | _ => none

/-- What the words behind a request for help ask about: at most one command, or help itself. -/
def helpOn : List String → Usage
  | [] => .help
  | [word] => if (verb? word).isSome || word = "help" then .help else .unknownCommand word
  | word :: next :: _ =>
    .unknownCommand (if (verb? word).isSome || word = "help" then next else word)

/-- The command that arguments write. -/
def read : List String → Except Usage Command
  | [] => .error .noCommand
  | text :: rest =>
    match verb? text with
    | some verb =>
      match Given.read verb {} rest with
      | .error fault => .error fault
      | .ok given => given.command verb
    | none =>
      if text = "help" then .error (helpOn rest)
      else
        match Argument.ofText text with
        | .separator =>
          match rest with
          | [] => .error .noCommand
          | word :: _ =>
            if (verb? word).isSome || word = "help" then .error (.unknownArgument word)
            else .error (.unknownCommand word)
        | .long name attached =>
          if name = "help" then .error (if attached.isSome then .unwantedValue else .help)
          else .error (.unknownArgument text)
        | .short letter _ => .error (if letter = 'h' then .help else .unknownArgument text)
        | .word => .error (.unknownCommand text)

end Command
end TypedTree
