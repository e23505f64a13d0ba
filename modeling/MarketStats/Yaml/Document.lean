import MarketStats.Yaml.Layout
import MarketStats.Yaml.Node

/-!
# Documents

A text holds one document or none.  Directives in front of it may declare its
version and handles of tags.  A node with an anchor may be repeated behind it;
the document keeps such nodes, and a repeated node is looked up there.
-/

namespace MarketStats

namespace Yaml

/-- The anchors of a document up to a place: what each name refers to, and the
nodes that are referred to. -/
structure Anchors where
  numbers : List (String × Nat)
  nodes : List (Nat × Node Nat)

namespace Anchors

def none : Anchors :=
  { numbers := [], nodes := [] }

def number? (anchors : Anchors) (name : String) : Option Nat :=
  (anchors.numbers.find? fun entry => entry.1 == name).map Prod.snd

/-- Let a name refer to a node that starts here.  Its number is the number of
names that have been used so far, also where a name is used again. -/
def declare (anchors : Anchors) (name : Option String) : Anchors :=
  match name with
  | some name =>
      { anchors with
        numbers := (name, anchors.numbers.length) ::
          anchors.numbers.filter fun entry => entry.1 != name }
  | Option.none => anchors

/-- Keep a node under the number that its name got.  Nodes are kept in front of
those that they contain. -/
def keep (before after : Anchors) (name : Option String) (node : Node Nat) : Anchors :=
  let inside := after.nodes.drop before.nodes.length
  match name with
  | some _ =>
      { after with nodes := before.nodes ++ (before.numbers.length, node) :: inside }
  | Option.none => after

/-- The node with a number; of several the last one. -/
def node? (anchors : Anchors) (number : Nat) : Option (Node Nat) :=
  (anchors.nodes.reverse.find? fun entry => entry.1 == number).map Prod.snd

end Anchors

namespace Node

mutual

/-- A node in which names are replaced by numbers, and the anchors behind it.
Every name must have been declared in front of its use. -/
def link? (anchors : Anchors) : Node String → Option (Node Nat × Anchors)
  | .repeated name => (anchors.number? name).map fun number => (.repeated number, anchors)
  | .scalar properties style text =>
      let node : Node Nat := .scalar properties style text
      let declared := anchors.declare properties.anchor
      some (node, anchors.keep declared properties.anchor node)
  | .sequence properties items => do
      let (items, behind) ← linkItems? (anchors.declare properties.anchor) items
      let node : Node Nat := .sequence properties items
      some (node, anchors.keep behind properties.anchor node)
  | .mapping properties entries => do
      let (entries, behind) ← linkEntries? (anchors.declare properties.anchor) entries
      let node : Node Nat := .mapping properties entries
      some (node, anchors.keep behind properties.anchor node)

def linkItems? (anchors : Anchors) : List (Node String) → Option (List (Node Nat) × Anchors)
  | [] => some ([], anchors)
  | item :: items => do
      let (item, anchors) ← link? anchors item
      let (items, anchors) ← linkItems? anchors items
      some (item :: items, anchors)

def linkEntries? (anchors : Anchors) :
    List (Node String × Node String) → Option (List (Node Nat × Node Nat) × Anchors)
  | [] => some ([], anchors)
  | (key, value) :: entries => do
      let (key, anchors) ← link? anchors key
      let (value, anchors) ← link? anchors value
      let (entries, anchors) ← linkEntries? anchors entries
      some ((key, value) :: entries, anchors)

end

end Node

/-- The only document of a text: its node, unless the text is blank, and the
anchors in it. -/
structure Document where
  root : Option (Node Nat)
  anchors : Anchors

namespace Document

def blank : Document :=
  { root := none, anchors := .none }

def follow (document : Document) (node : Node Nat) : Node Nat :=
  match node with
  | .repeated number => (document.anchors.node? number).getD node
  | _ => node

def isKnownVersion (major minor : Nat) : Bool :=
  major == 1 && (minor == 1 || minor == 2)

/-- Read the directives in front of a document, of which each may occur once,
up to the marker at which the document starts. -/
def readDirectives? (versionRead : Bool) (handles : List TagHandle) :
    List Token → Option (List TagHandle × List Token)
  | .version major minor :: rest =>
      if versionRead || !isKnownVersion major minor then none
      else readDirectives? true handles rest
  | .tagHandle handle :: rest =>
      if handles.any fun entry => entry.handle == handle.handle then none
      else readDirectives? versionRead (handle :: handles) rest
  | .documentStart :: rest => some (handles, rest)
  | _ => none

def readContent? (handles : List TagHandle) (tokens : List Token) :
    Option (Node String × List Token) :=
  match tokens with
  | [] => some (.empty, [])
  | .documentStart :: _ => some (.empty, tokens)
  | .documentEnd :: _ => some (.empty, tokens)
  | .version _ _ :: _ => some (.empty, tokens)
  | .tagHandle _ :: _ => some (.empty, tokens)
  | _ => Node.read? (handles ++ TagHandle.known) (4 * tokens.length + 4) true false tokens

def isOver (tokens : List Token) : Bool :=
  tokens.all fun token =>
    match token with
    | .documentEnd => true
    | _ => false

def startsByMarker : List Token → Bool
  | .version _ _ :: _ => true
  | .tagHandle _ :: _ => true
  | .documentStart :: _ => true
  | _ => false

def ofTokens? (tokens : List Token) : Option Document :=
  if tokens.isEmpty then
    some blank
  else do
    let (node, rest) ←
      if startsByMarker tokens then
        (readDirectives? false [] tokens).bind fun (handles, rest) => readContent? handles rest
      else
        Node.read? TagHandle.known (4 * tokens.length + 4) true false tokens
    if isOver rest then
      let (root, anchors) ← node.link? .none
      some { root := some root, anchors }
    else
      none

def read? (text : List Char) : Option Document :=
  (tokens? text).bind ofTokens?

end Document

end Yaml

end MarketStats
