import MarketStats.Yaml.Node

/-!
# The meaning of scalars

A scalar is read as what its place calls for.  Only plain scalars stand for
numbers, truth values or nothing; a literal one does so if its tag says that it
is of that kind.
-/

namespace MarketStats

namespace Yaml

def isNullWord (text : String) : Bool :=
  text == "null" || text == "Null" || text == "NULL" || text == "~"

namespace Node

def isEmpty {α : Type} : Node α → Bool
  | .scalar _ .plain text => text.isEmpty
  | _ => false

def asText? {α : Type} : Node α → Option String
  | .scalar _ _ text => some text
  | _ => none

/-- The text of a scalar that may stand for something of a kind other than
text. -/
def literalText? {α : Type} (kind : String) : Node α → Option String
  | .scalar _ .plain text => some text
  | .scalar properties .literal text =>
      if properties.tag = some (Tag.common kind) then some text else none
  | _ => none

def asBool? {α : Type} (node : Node α) : Option Bool :=
  (node.literalText? "bool").bind fun text =>
    if text == "true" || text == "True" || text == "TRUE" then some true
    else if text == "false" || text == "False" || text == "FALSE" then some false
    else none

/-- The number that a scalar stands for, if it is below a bound. -/
def asNatBelow? {α : Type} (bound : Nat) (node : Node α) : Option Nat :=
  (node.literalText? "int").bind fun text =>
    (readNumber? text.toList).bind fun value => if value < bound then some value else none

/-- The text of a scalar, or nothing.  A plain scalar without a tag stands for
nothing if it is empty or a word for nothing; one with the tag of nothing must
be such a word. -/
def asOptionalText? {α : Type} : Node α → Option (Option String)
  | .scalar ⟨_, none⟩ .plain text =>
      some (if text.isEmpty || isNullWord text then none else some text)
  | .scalar ⟨_, some tag⟩ .plain text =>
      if tag ≠ Tag.common "null" then some (some text)
      else if isNullWord text then some none
      else none
  | node => node.asText?.map some

/-- The name of a choice: a text, or a tag of which no value is written. -/
def asName? {α : Type} : Node α → Option String
  | .scalar properties style text =>
      match properties.tag.bind Tag.localName? with
      | none => some text
      | some name =>
          if style = .plain ∧ (text.isEmpty ∨ isNullWord text) then some (String.ofList name)
          else none
  | _ => none

end Node

end Yaml

end MarketStats
