import MarketStats.Yaml.Token

/-!
# Nodes

A document is a tree of scalars, sequences and mappings.  A node may carry an
anchor and a tag, and another node may stand for it by way of the anchor.  This
file reads a node from the tokens of a text.
-/

namespace MarketStats

namespace Yaml

/-- What may be written in front of a node. -/
structure Properties where
  anchor : Option String
  tag : Option Tag

namespace Properties

def none : Properties :=
  { anchor := Option.none, tag := Option.none }

def isNone (properties : Properties) : Bool :=
  properties.anchor.isNone && properties.tag.isNone

/-- The properties of a scalar; the unspecific tag says nothing about it. -/
def ofScalar (properties : Properties) : Properties :=
  { properties with tag := properties.tag.filter fun tag => tag != Tag.unspecific }

end Properties

/-- A node of a document.  What a repeated node refers to is given by a name,
or, once the names are known, by a number. -/
inductive Node (α : Type)
  | scalar (properties : Properties) (style : ScalarStyle) (text : String)
  | sequence (properties : Properties) (items : List (Node α))
  | mapping (properties : Properties) (entries : List (Node α × Node α))
  | repeated (target : α)

namespace Node

def empty {α : Type} : Node α := .scalar .none .plain ""

def ofProperties? (properties : Properties) : Option (Node String) :=
  if properties.isNone then none else some (.scalar properties .plain "")

/-- The tag that a written tag stands for; the outer option says whether it
stands for one. -/
def resolved? (handles : List TagHandle) (name : TagName) : Option (Option Tag) :=
  (name.resolve? handles).map some

/-- Read the properties of a node, in either order. -/
def readProperties? (handles : List TagHandle) :
    List Token → Option (Properties × List Token)
  | .anchor anchor :: .tag name :: rest =>
      (resolved? handles name).map fun tag => (⟨some anchor, tag⟩, rest)
  | .tag name :: .anchor anchor :: rest =>
      (resolved? handles name).map fun tag => (⟨some anchor, tag⟩, rest)
  | .anchor anchor :: rest => some (⟨some anchor, none⟩, rest)
  | .tag name :: rest => (resolved? handles name).map fun tag => (⟨none, tag⟩, rest)
  | rest => some (.none, rest)

mutual

/-- Read a node.  Block collections may start where the first flag says so, and
a block sequence may go without indentation where the second one does.  The
number counts steps that are left, in this function and in those below. -/
def read? (handles : List TagHandle) :
    Nat → (inBlock flush : Bool) → List Token → Option (Node String × List Token)
  | 0, _, _, _ => none
  | _ + 1, _, _, .alias anchor :: rest => some (.repeated anchor, rest)
  | steps + 1, inBlock, flush, tokens => do
      let (properties, tokens) ← readProperties? handles tokens
      match inBlock, flush, tokens with
      | _, _, .scalar style text :: rest => some (.scalar properties.ofScalar style text, rest)
      | _, _, .flowSequenceStart :: rest => do
          let (items, rest) ← readFlowItems? handles steps true rest
          some (.sequence properties items, rest)
      | _, _, .flowMappingStart :: rest => do
          let (entries, rest) ← readFlowEntries? handles steps true rest
          some (.mapping properties entries, rest)
      | _, true, .blockEntry :: rest => do
          let (items, rest) ← readFlushItems? handles steps (.blockEntry :: rest)
          some (.sequence properties items, rest)
      | true, _, .blockSequenceStart :: rest => do
          let (items, rest) ← readItems? handles steps rest
          some (.sequence properties items, rest)
      | true, _, .blockMappingStart :: rest => do
          let (entries, rest) ← readEntries? handles steps rest
          some (.mapping properties entries, rest)
      | _, _, rest => (ofProperties? properties).map fun node => (node, rest)

def readItems? (handles : List TagHandle) :
    Nat → List Token → Option (List (Node String) × List Token)
  | 0, _ => none
  | _ + 1, .blockEnd :: rest => some ([], rest)
  | steps + 1, .blockEntry :: rest => do
      let (item, rest) ←
        match rest with
        | .blockEntry :: _ => some (.empty, rest)
        | .blockEnd :: _ => some (.empty, rest)
        | _ => read? handles steps true false rest
      let (items, rest) ← readItems? handles steps rest
      some (item :: items, rest)
  | _ + 1, _ => none

def readFlushItems? (handles : List TagHandle) :
    Nat → List Token → Option (List (Node String) × List Token)
  | 0, _ => none
  | steps + 1, .blockEntry :: rest => do
      let (item, rest) ←
        match rest with
        | .blockEntry :: _ => some (.empty, rest)
        | .key :: _ => some (.empty, rest)
        | .value :: _ => some (.empty, rest)
        | .blockEnd :: _ => some (.empty, rest)
        | _ => read? handles steps true false rest
      let (items, rest) ← readFlushItems? handles steps rest
      some (item :: items, rest)
  | _ + 1, rest => some ([], rest)

/-- Read the key or the value of an entry of a block mapping behind its
mark. -/
def readPart? (handles : List TagHandle) :
    Nat → List Token → Option (Node String × List Token)
  | 0, _ => none
  | _ + 1, .key :: rest => some (.empty, .key :: rest)
  | _ + 1, .value :: rest => some (.empty, .value :: rest)
  | _ + 1, .blockEnd :: rest => some (.empty, .blockEnd :: rest)
  | steps + 1, rest => read? handles steps true true rest

def readEntries? (handles : List TagHandle) :
    Nat → List Token → Option (List (Node String × Node String) × List Token)
  | 0, _ => none
  | _ + 1, .blockEnd :: rest => some ([], rest)
  | steps + 1, .key :: rest => do
      let (key, rest) ← readPart? handles steps rest
      let (value, rest) ←
        match rest with
        | .value :: rest => readPart? handles steps rest
        | _ => some (.empty, rest)
      let (entries, rest) ← readEntries? handles steps rest
      some ((key, value) :: entries, rest)
  | _ + 1, _ => none

/-- Read the value of an entry inside a flow collection if there is a mark. -/
def readFlowValue? (handles : List TagHandle) :
    Nat → List Token → Option (Node String × List Token)
  | 0, _ => none
  | _ + 1, .value :: .flowEntry :: rest => some (.empty, .flowEntry :: rest)
  | _ + 1, .value :: .flowMappingEnd :: rest => some (.empty, .flowMappingEnd :: rest)
  | steps + 1, .value :: rest => read? handles steps false false rest
  | _ + 1, rest => some (.empty, rest)

/-- Read the only entry of a mapping that is an item of a flow sequence.  Where
its key is empty the token behind the mark of the key counts for nothing. -/
def readFlowPair? (handles : List TagHandle) :
    Nat → List Token → Option (Node String × List Token)
  | 0, _ => none
  | steps + 1, tokens => do
      let (key, rest) ←
        match tokens with
        | .value :: rest => some (.empty, rest)
        | .flowEntry :: rest => some (.empty, rest)
        | .flowSequenceEnd :: rest => some (.empty, rest)
        | _ => read? handles steps false false tokens
      let (value, rest) ←
        match rest with
        | .value :: .flowSequenceEnd :: rest => some (.empty, .flowSequenceEnd :: rest)
        | .value :: .flowEntry :: rest => some (.empty, .flowEntry :: rest)
        | .value :: rest => read? handles steps false false rest
        | _ => some (.empty, rest)
      some (.mapping .none [(key, value)], rest)

/-- Read the items of a flow sequence up to its end.  The flag says whether the
next one is the first. -/
def readFlowItems? (handles : List TagHandle) :
    Nat → (first : Bool) → List Token → Option (List (Node String) × List Token)
  | 0, _, _ => none
  | _ + 1, _, .flowSequenceEnd :: rest => some ([], rest)
  | steps + 1, false, .flowEntry :: rest => readFlowItems? handles steps true rest
  | _ + 1, false, _ => none
  | steps + 1, true, tokens => do
      let (item, rest) ←
        match tokens with
        | .key :: rest => readFlowPair? handles steps rest
        | _ => read? handles steps false false tokens
      let (items, rest) ← readFlowItems? handles steps false rest
      some (item :: items, rest)

/-- Read the entries of a flow mapping up to its end.  The flag says whether
the next one is the first. -/
def readFlowEntries? (handles : List TagHandle) :
    Nat → (first : Bool) → List Token → Option (List (Node String × Node String) × List Token)
  | 0, _, _ => none
  | _ + 1, _, .flowMappingEnd :: rest => some ([], rest)
  | steps + 1, false, .flowEntry :: rest => readFlowEntries? handles steps true rest
  | _ + 1, false, _ => none
  | steps + 1, true, .key :: rest => do
      let (key, rest) ←
        match rest with
        | .value :: _ => some (.empty, rest)
        | .flowEntry :: _ => some (.empty, rest)
        | .flowMappingEnd :: _ => some (.empty, rest)
        | _ => read? handles steps false false rest
      let (value, rest) ← readFlowValue? handles steps rest
      let (entries, rest) ← readFlowEntries? handles steps false rest
      some ((key, value) :: entries, rest)
  | steps + 1, true, tokens => do
      let (key, rest) ← read? handles steps false false tokens
      let (entries, rest) ← readFlowEntries? handles steps false rest
      some ((key, .empty) :: entries, rest)

end

end Node

end Yaml

end MarketStats
