import TypedTree.Schema.Node

/-!
# Fingerprints of nodes

The fingerprint of a node is a sequence of bytes that spells everything that decides about its shape
and nothing else: format and resource kinds are left out, an empty type counts as none, and the
properties stand in the order of their names. Each field begins with a tag of its own, a text ends
with a byte that no text holds, and so does a node.
-/

namespace TypedTree.Schema

/-- The byte that ends a text and a node; it occurs in no UTF-8 text. -/
def endMark : UInt8 := 0xFF

/-- The bytes of a text and its end. -/
def textBytes (text : String) : List UInt8 := text.toUTF8.toList ++ [endMark]

/-- The byte of a truth value. -/
def flagByte (flag : Bool) : UInt8 := if flag then 1 else 0

/-- A tagged text, if there is one. -/
def taggedText (tag : UInt8) : Option String → List UInt8
  | none => []
  | some text => tag :: textBytes text

/-- Properties in the order of their names, each behind its tag and name. -/
def propertyBytes (properties : List (String × List UInt8)) : List UInt8 :=
  (properties.mergeSort fun a b => decide (a.1 ≤ b.1)).flatMap fun property =>
    5 :: textBytes property.1 ++ property.2

namespace Node

mutual

/-- The fingerprint of a node. -/
def fingerprint : Node → List UInt8
  | ⟨reference, kind, _, items, additionalItems, properties, additionalProperties, allOf,
      intOrString, preserveUnknown, _⟩ =>
    taggedText 1 reference ++ taggedText 2 (kind.filter (· != "")) ++ partBytes 3 items ++
      partBytes 4 additionalItems ++ propertyBytes (propertyPrints properties) ++
      additionalBytes additionalProperties ++ memberBytes allOf ++
      [8, flagByte intOrString, flagByte preserveUnknown, endMark]
termination_by structural node => node

/-- The fingerprint of a part behind its tag, if there is one. -/
def partBytes (tag : UInt8) : Option Node → List UInt8
  | none => []
  | some node => tag :: fingerprint node
termination_by structural node => node

/-- The fingerprints of properties under their names. -/
def propertyPrints : List (String × Node) → List (String × List UInt8)
  | [] => []
  | (name, node) :: rest => (name, fingerprint node) :: propertyPrints rest
termination_by structural properties => properties

/-- The bytes of what may stand beyond the properties. -/
def additionalBytes : Option (Additional Node) → List UInt8
  | none => []
  | some (.allowed permitted) => [6, flagByte permitted]
  | some (.schema node) => 6 :: fingerprint node
termination_by structural additional => additional

/-- The fingerprints of members, each behind its tag. -/
def memberBytes : List Node → List UInt8
  | [] => []
  | node :: rest => 7 :: fingerprint node ++ memberBytes rest
termination_by structural nodes => nodes

end

end Node
end TypedTree.Schema
