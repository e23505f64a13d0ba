import MarketStats.Text.Symbol

/-!
# Redis addresses

The address of a Redis server is a URL.  It names a host, which may be followed
by the number of a socket and by that of a database, or it gives the path of a
local socket.  Only such an address can be used; whether a server listens there
is not looked at.
-/

namespace MarketStats

/-- The parts of an address.  The authority is what stands between two slashes
and the path; it is absent when there are no two slashes. -/
structure RedisAddress where
  scheme : String
  authority : Option (List Char)
  path : List Char
  query : List (List Char × List Char)
deriving DecidableEq, Repr

/-- The parts of an authority: who logs in, the host, and the number of the
socket. -/
structure RedisAuthority where
  user : List Char
  host : List Char
  socket : Option (List Char)
deriving DecidableEq, Repr

namespace RedisAddress

def splitBefore (stop : Char → Bool) (text : List Char) : List Char × List Char :=
  (text.takeWhile fun character => !stop character,
    text.dropWhile fun character => !stop character)

def splitAt (separator : Char) : List Char → List (List Char)
  | [] => [[]]
  | character :: rest =>
      if character = separator then
        [] :: splitAt separator rest
      else
        match splitAt separator rest with
        | [] => [[character]]
        | part :: parts => (character :: part) :: parts

def trim (dropped : Char → Bool) (text : List Char) : List Char :=
  ((text.dropWhile dropped).reverse.dropWhile dropped).reverse

def decimalNumber? (text : List Char) : Option Nat :=
  if text ≠ [] ∧ text.all Char.isDigit then some (Nat.ofDigitChars 10 text 0) else none

/-- The bytes of a text in which a percent sign and two hexadecimal digits
stand for a byte. -/
def percentDecode : List Char → List UInt8
  | '%' :: high :: low :: rest =>
      match Text.ofHex? [high, low] with
      | some bytes => bytes ++ percentDecode rest
      | none => (Text.Symbol.char '%').toBytes ++ percentDecode (high :: low :: rest)
  | character :: rest => (Text.Symbol.char character).toBytes ++ percentDecode rest
  | [] => []

/-- The characters of a text after percent decoding, if all bytes belong to
characters. -/
def decoded? (text : List Char) : Option (List Char) :=
  (Text.ofBytes (percentDecode text)).mapM fun symbol =>
    match symbol with
    | .char character => some character
    | .stray _ => none

/-- A part of the query; plus signs stand for blanks. -/
def queryText (text : List Char) : List Char :=
  (decoded? (text.map fun character => if character = '+' then ' ' else character)).getD []

def queryField (field : List Char) : List Char × List Char :=
  let (name, value) := splitBefore (· == '=') field
  (queryText name, queryText (value.drop 1))

def isSchemeCharacter (character : Char) : Bool :=
  character.isAlphanum || character == '+' || character == '-' || character == '.'

def isScheme (text : List Char) : Bool :=
  (text.head?.any Char.isAlpha) && text.all isSchemeCharacter

def isLineCharacter (character : Char) : Bool :=
  character == '\t' || character == '\n' || character == '\r'

def isHere (segment : List Char) : Bool :=
  [".", "%2e"].contains (String.ofList (segment.map Char.toLower))

def isAbove (segment : List Char) : Bool :=
  ["..", "%2e%2e", "%2e.", ".%2e"].contains (String.ofList (segment.map Char.toLower))

/-- Whether a segment of a path names a drive.  Nothing lies above a drive. -/
def isDrive : List Char → Bool
  | letter :: mark :: rest =>
      letter.isAlpha && (mark == ':' || mark == '|') && (rest.isEmpty || rest.head? == some '\\')
  | _ => false

/-- Go from a place, given by the segments that lead there, latest first, to
the one that a segment names. -/
def descend (place : List (List Char)) (segment : List Char) : List (List Char) :=
  if isHere segment then place
  else if isAbove segment then
    match place with
    | [] => []
    | latest :: above => if isDrive latest then latest :: above else above
  else segment :: place

def plainPath (path : List Char) : List Char :=
  if path.head? = some '/' then
    let segments := splitAt '/' (path.drop 1)
    let last := segments.getLast?.getD []
    let place := segments.dropLast.foldl descend []
    let (place, file) :=
      if isHere last || isAbove last then (descend place last, []) else (place, last)
    '/' :: place.reverse.flatMap (fun segment => segment ++ ['/']) ++ file
  else
    path

/-- Split the number of a socket from a host; colons inside brackets belong to
the host. -/
def splitSocket : (bracketed : Bool) → List Char → List Char × Option (List Char)
  | _, [] => ([], none)
  | bracketed, character :: rest =>
      if character = ':' ∧ !bracketed then
        ([], some rest)
      else
        let inside := character == '[' || (bracketed && character != ']')
        let (host, socket) := splitSocket inside rest
        (character :: host, socket)

/-- Take an authority apart.  Who logs in stands in front of the last at
sign. -/
def splitAuthority (authority : List Char) : RedisAuthority :=
  let place := (authority.reverse.takeWhile (· != '@')).reverse
  let (host, socket) := splitSocket false place
  { user := authority.take (authority.length - place.length - 1), host, socket }

/-- Split an authority from the path behind it.  A backslash behind the number
of a socket belongs to the path. -/
def splitPath (behind : List Char) : List Char × List Char :=
  let (authority, path) := splitBefore (· == '/') behind
  let (_, backslashed) := splitBefore (· == '\\') ((splitAuthority authority).socket.getD [])
  if backslashed = [] then
    (authority, path)
  else
    (authority.take (authority.length - backslashed.length), '/' :: backslashed ++ path)

def ofParts (scheme : List Char) (rest : List Char) : RedisAddress :=
  let (place, query) := splitBefore (· == '?') (splitBefore (· == '#') rest).1
  let fields := (splitAt '&' (query.drop 1)).map queryField
  let lower := String.ofList (scheme.map Char.toLower)
  match place with
  | '/' :: '/' :: behind =>
      let (authority, path) := splitPath behind
      { scheme := lower, authority := some authority, path := plainPath path, query := fields }
  | path => { scheme := lower, authority := none, path := plainPath path, query := fields }

def ofText? (text : String) : Option RedisAddress :=
  let trimmed := trim (fun character => decide (character ≤ ' ')) text.toList
  let (scheme, afterScheme) :=
    splitBefore (· == ':') (trimmed.filter fun character => !isLineCharacter character)
  if isScheme scheme && !afterScheme.isEmpty then
    some (ofParts scheme (afterScheme.drop 1))
  else
    none

/-- The value of a field of the query; the last one counts. -/
def queryValue? (address : RedisAddress) (name : String) : Option (List Char) :=
  (address.query.reverse.find? fun field => field.1 == name.toList).map Prod.snd

/-- Whether a text is the number of a database, a signed integer of sixty-four
bits. -/
def isDatabaseNumber : List Char → Bool
  | '-' :: digits => (decimalNumber? digits).any fun value => decide (value ≤ 0x8000000000000000)
  | '+' :: digits => (decimalNumber? digits).any fun value => decide (value < 0x8000000000000000)
  | digits => (decimalNumber? digits).any fun value => decide (value < 0x8000000000000000)

def isHostCharacter (character : Char) : Bool :=
  !("\x00\t\n\r #/:<>?@[\\]^|".toList.contains character)

/-- Whether a text is a number from zero to 255 without needless zeros. -/
def isOctet (text : List Char) : Bool :=
  (decimalNumber? text).any (fun value => decide (value ≤ 255))
    && (text.length == 1 || text.head? != some '0')

def isGroup (text : List Char) : Bool :=
  decide (1 ≤ text.length ∧ text.length ≤ 4)
    && text.all fun digit => (Text.hexValue? digit).isSome

/-- The number of groups that parts between colons stand for.  The last part
may be four octets with dots between them, which stand for two groups. -/
def groupCount? : List (List Char) → Option Nat
  | [] => some 0
  | [part] =>
      let octets := splitAt '.' part
      if octets.length = 4 ∧ octets.all isOctet then some 2
      else if isGroup part then some 1
      else none
  | part :: parts => if isGroup part then (groupCount? parts).map (· + 1) else none

def splitAtGap? : List Char → Option (List Char × List Char)
  | ':' :: ':' :: rest => some ([], rest)
  | character :: rest => (splitAtGap? rest).map fun (front, back) => (character :: front, back)
  | [] => none

def sideCount? (side : List Char) : Option Nat :=
  groupCount? (if side = [] then [] else splitAt ':' side)

/-- Whether a text is an address of eight groups, of which some may be left out
at one gap. -/
def isGroupedAddress (text : List Char) : Bool :=
  match splitAtGap? text with
  | none => groupCount? (splitAt ':' text) == some 8
  | some (front, back) =>
      match sideCount? front, sideCount? back with
      | some frontCount, some backCount =>
          decide (frontCount + backCount < 8) && !front.contains '.'
      | _, _ => false

/-- Whether a text names a host: a name, or a grouped address in brackets. -/
def isHost : List Char → Bool
  | '[' :: rest => rest.getLast? == some ']' && isGroupedAddress rest.dropLast
  | name => name.all isHostCharacter

/-- Whether a text is the number of a socket, or empty. -/
def isSocketNumber (text : List Char) : Bool :=
  text.isEmpty || (decimalNumber? text).any fun value => decide (value < 65536)

/-- The authority of an address, if it is well formed.  A host that is empty
has neither a user nor a socket. -/
def authority? (authority : List Char) : Option RedisAuthority :=
  let parts := splitAuthority authority
  let anonymous := authority ≠ ['@'] ∧ (parts.user = [] ∨ parts.user = [':'])
  let named := parts.host ≠ [] ∨ (parts.socket = none ∧ anonymous)
  if isHost parts.host && isSocketNumber (parts.socket.getD []) && decide named then
    some parts
  else
    none

def hasKnownProtocol (address : RedisAddress) : Bool :=
  match address.queryValue? "protocol" with
  | none => true
  | some version => ["2", "resp2", "3", "resp3"].contains (String.ofList version)

def isUsableHost (address : RedisAddress) : Bool :=
  let database := trim (· == '/') address.path
  (address.authority.bind authority?).any fun parts =>
    !parts.host.isEmpty && (splitAt ':' parts.user).all (fun part => (decoded? part).isSome)
      && (database.isEmpty || isDatabaseNumber database) && address.hasKnownProtocol

def isUsableSocket (address : RedisAddress) : Bool :=
  let isLocal :=
    (authority? (address.authority.getD [])).any fun parts =>
      parts.host.isEmpty || parts.host == "localhost".toList
  isLocal && address.path.head? == some '/'
    && ((address.queryValue? "db").map isDatabaseNumber).getD true && address.hasKnownProtocol

def isUsable (address : RedisAddress) : Bool :=
  if address.scheme = "redis" then address.isUsableHost
  else if address.scheme = "unix" ∨ address.scheme = "redis+unix" then address.isUsableSocket
  else false

end RedisAddress

end MarketStats
