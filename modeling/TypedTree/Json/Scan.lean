import TypedTree.Json.Token

/-!
# The scan of a JSON text

A scan is the tree that the tokens of a text begin, as far as they follow the grammar. Where they
leave it, the scan ends: a value that should have stood there is `broken`, and every array and
object around it is not closed. A reader that walks a scan from left to right therefore meets the
faults of the text in the order in which the text has them, and meets none that lies behind what
it asks for.
-/

namespace TypedTree.Json

/-- What a JSON text holds up to the point where it leaves the grammar. -/
inductive Scan where
  | null
  | bool (value : Bool)
  /-- A number; without a value if it is read as no finite one. -/
  | number (value : Option Json.Number)
  /-- A string; without a text if it is no Unicode text. -/
  | text (value : Option String)
  /-- An array; `closed` if its bracket was reached. -/
  | array (items : List Scan) (closed : Bool)
  /-- An object; `closed` if its bracket was reached. -/
  | object (members : List (Option String × Scan)) (closed : Bool)
  /-- A place at which a value should stand and none does. -/
  | broken
  deriving Inhabited

namespace Scan

/-- A container that waits for a value, with what it already holds in reverse order. -/
inductive Frame where
  | array (items : List Scan)
  | object (members : List (Option String × Scan)) (key : Option String)

/-- What has to come next. -/
inductive Expected where
  | value
  /-- An item, or the end of the array. -/
  | firstItem
  /-- A comma, or the end of the array. -/
  | nextItem (items : List Scan)
  /-- A key, or the end of the object. -/
  | firstKey
  | key (members : List (Option String × Scan))
  | colon (members : List (Option String × Scan)) (key : Option String)
  /-- A comma, or the end of the object. -/
  | nextMember (members : List (Option String × Scan))

/-- Gives a value to the containers that wait for it, and leaves each of them unclosed. -/
def abandon (value : Scan) : List Frame → Scan
  | [] => value
  | .array items :: frames => abandon (.array (value :: items).reverse false) frames
  | .object members key :: frames =>
    abandon (.object ((key, value) :: members).reverse false) frames

/-- The scan of a text that leaves the grammar where something was expected. -/
def cut (frames : List Frame) : Expected → Scan
  | .value => abandon .broken frames
  | .firstItem => abandon (.array [] false) frames
  | .nextItem items => abandon (.array items.reverse false) frames
  | .firstKey => abandon (.object [] false) frames
  | .key members => abandon (.object members.reverse false) frames
  | .colon members key => abandon (.object ((key, .broken) :: members).reverse false) frames
  | .nextMember members => abandon (.object members.reverse false) frames

/-- What a token does to a scan. -/
inductive Step where
  /-- The value is whole and no container waits for it. -/
  | done (value : Scan)
  /-- The scan goes on with these open containers. -/
  | more (frames : List Frame) (expected : Expected)
  /-- The token may not stand here. -/
  | fault

/-- Hands a whole value to the innermost open container. -/
def deliver (value : Scan) : List Frame → Step
  | [] => .done value
  | .array items :: frames => .more frames (.nextItem (value :: items))
  | .object members key :: frames => .more frames (.nextMember ((key, value) :: members))

/-- The token at the front of a value. -/
def start (frames : List Frame) : Token → Step
  | .null => deliver .null frames
  | .bool value => deliver (.bool value) frames
  | .number value => deliver (.number value) frames
  | .text value => deliver (.text value) frames
  | .openArray => .more frames .firstItem
  | .openObject => .more frames .firstKey
  | _ => .fault

/-- The grammar of JSON: what each token does where it stands. -/
def step (frames : List Frame) (expected : Expected) (token : Token) : Step :=
  match expected, token with
  | .value, token => start frames token
  | .firstItem, .closeArray => deliver (.array [] true) frames
  | .firstItem, token => start (.array [] :: frames) token
  | .nextItem items, .comma => .more (.array items :: frames) .value
  | .nextItem items, .closeArray => deliver (.array items.reverse true) frames
  | .firstKey, .closeObject => deliver (.object [] true) frames
  | .firstKey, .text key => .more frames (.colon [] key)
  | .key members, .text key => .more frames (.colon members key)
  | .colon members key, .colon => .more (.object members key :: frames) .value
  | .nextMember members, .comma => .more frames (.key members)
  | .nextMember members, .closeObject => deliver (.object members.reverse true) frames
  | _, _ => .fault

/-- The scan that tokens continue, and the tokens behind the first whole value. -/
def build (frames : List Frame) (expected : Expected) : List Token → Scan × List Token
  | [] => (cut frames expected, [])
  | token :: rest =>
    match step frames expected token with
    | .done value => (value, rest)
    | .more frames expected => build frames expected rest
    | .fault => (cut frames expected, token :: rest)

/-- The scan of the first value of a text, and the tokens behind it. -/
def ofBytes (bytes : List UInt8) : Scan × List Token := build [] .value (tokens bytes)

end Scan

/--
A way to scan texts: the scan of the first value of a text, and the tokens behind it. Scanners may
differ in the numbers that they read, and in the texts that they take for values.
-/
abbrev Scanner := List UInt8 → Scan × List Token

end TypedTree.Json
