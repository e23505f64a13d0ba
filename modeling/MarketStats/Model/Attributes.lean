import MarketStats.Json.Decode

/-!
# Attributes of a token

The attributes of a token are a JSON object of strings.  When a trait is given
more than once, the last value counts.
-/

namespace MarketStats

namespace Attributes

/-- Put a value under a trait in a list sorted by trait, in place of any
earlier value. -/
def insert (traitName value : String) : List (String × String) → List (String × String)
  | [] => [(traitName, value)]
  | (otherName, otherValue) :: rest =>
      if traitName < otherName then
        (traitName, value) :: (otherName, otherValue) :: rest
      else if traitName = otherName then
        (traitName, value) :: rest
      else
        (otherName, otherValue) :: insert traitName value rest

/-- The fields of an object, if its values are all strings. -/
def ofJson? (value : Json) : Option (List (String × String)) := do
  let fields ← value.asFields?
  let pairs ← fields.mapM fun (name, content) => content.asText?.map fun text => (name, text)
  some (pairs.foldl (fun sorted (name, content) => insert name content sorted) [])

/-- The traits and values of a blob, sorted by trait, if it can be read. -/
def parse? (blob : String) : Option (List (String × String)) :=
  Json.decode? ofJson? (Text.ofString blob)

end Attributes

end MarketStats
