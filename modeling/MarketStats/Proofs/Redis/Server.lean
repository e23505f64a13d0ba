import MarketStats.Proofs.Double.Reader
import MarketStats.Proofs.Text.ByteOrder
import MarketStats.Redis.Reply
import Mathlib.Data.List.Sort

/-!
# A Redis server

A server keeps texts and sorted sets under keys, and a key with a lifetime is
absent from the moment on at which the lifetime has elapsed.  It is sent words,
takes them for a command, and replies.  What it does is what is documented of
the commands, as far as they are sent.
-/

namespace MarketStats

namespace RedisCommand

/-- The command that some words make up. -/
def ofWords? : List String → Option RedisCommand
  | ["GET", key] => some (.get key)
  | ["PSETEX", key, milliseconds, value] =>
      milliseconds.toNat?.map fun milliseconds => .setFor key milliseconds value
  | ["SET", key, value] => some (.set key value)
  | ["SET", key, value, "NX", "PX", milliseconds] =>
      milliseconds.toNat?.map fun milliseconds => .setIfAbsent key value milliseconds
  | "DEL" :: key :: keys => some (.remove (key :: keys))
  | ["ZADD", key, score, member] =>
      (Double.read? score.toList).map fun score => .addScore key score member
  | ["ZRANGE", key, first, last] => do some (.range key (← first.toInt?) (← last.toInt?))
  | ["ZREVRANGE", key, first, last] => do some (.reverseRange key (← first.toInt?) (← last.toInt?))
  | _ => none

end RedisCommand

/-- What a server keeps under a key: a text, or the members of a sorted set with
their scores, in their order. -/
inductive RedisValue
  | text (content : String)
  | sortedSet (members : List (String × Double))

structure RedisEntry where
  value : RedisValue
  expiresAt : Option Nat

structure RedisServer where
  entries : String → Option RedisEntry

namespace RedisEntry

def isPresent (entry : RedisEntry) (now : Nat) : Bool :=
  match entry.expiresAt with
  | none => true
  | some moment => decide (now < moment)

end RedisEntry

namespace RedisValue

/-- Members of a sorted set stand by their scores, and where these are equal by
their bytes. -/
def InOrder (first second : String × Double) : Prop :=
  first.2.rank < second.2.rank ∨
    first.2.rank = second.2.rank ∧ Text.bytes first.1 ≤ Text.bytes second.1

instance (first second : String × Double) : Decidable (InOrder first second) :=
  inferInstanceAs (Decidable (_ ∨ _))

/-- Give a member a score, in place of any earlier one. -/
def addMember (members : List (String × Double)) (member : String) (score : Double) :
    List (String × Double) :=
  (members.filter fun entry => entry.1 ≠ member).orderedInsert InOrder (member, score)

/-- The members from one rank to another, both included.  A negative rank counts
from the end. -/
def membersBetween (members : List String) (first last : Int) : List String :=
  let rankOf (position : Int) := if position < 0 then members.length + position else position
  (members.zipIdx.filter fun (_, rank) => decide (rankOf first ≤ rank ∧ rank ≤ rankOf last)).map
    Prod.fst

end RedisValue

namespace RedisServer

def empty : RedisServer :=
  { entries := fun _ => none }

def find? (server : RedisServer) (now : Nat) (key : String) : Option RedisEntry :=
  (server.entries key).filter fun entry => entry.isPresent now

def put (server : RedisServer) (key : String) (entry : RedisEntry) : RedisServer :=
  { entries := fun other => if key = other then some entry else server.entries other }

def remove (server : RedisServer) (key : String) : RedisServer :=
  { entries := fun other => if key = other then none else server.entries other }

/-- Remove some keys, and count those that were present. -/
def removeAll (server : RedisServer) (now : Nat) : List String → Nat × RedisServer
  | [] => (0, server)
  | key :: keys =>
      let (count, rest) := (server.remove key).removeAll now keys
      (if (server.find? now key).isSome then count + 1 else count, rest)

def wrongType : RedisReply :=
  .error "WRONGTYPE Operation against a key holding the wrong kind of value"

def invalidLifetime : RedisReply :=
  .error "ERR invalid expire time"

/-- Numbers in replies have sixty-four bits. -/
def replyCount (count : Nat) : RedisReply :=
  .int (Int64.ofNat count).toInt

def replyRange (server : RedisServer) (now : Nat) (key : String)
    (select : List String → List String) : RedisReply :=
  match server.find? now key with
  | none => .array []
  | some ⟨.text _, _⟩ => wrongType
  | some ⟨.sortedSet members, _⟩ => .array ((select (members.map Prod.fst)).map RedisReply.bulk)

def perform (server : RedisServer) (now : Nat) : RedisCommand → RedisReply × RedisServer
  | .get key =>
      match server.find? now key with
      | none => (.nil, server)
      | some ⟨.text content, _⟩ => (.bulk content, server)
      | some ⟨.sortedSet _, _⟩ => (wrongType, server)
  | .setFor key milliseconds value =>
      if milliseconds = 0 then
        (invalidLifetime, server)
      else
        (.status "OK", server.put key ⟨.text value, some (now + Clock.milliseconds milliseconds)⟩)
  | .set key value => (.status "OK", server.put key ⟨.text value, none⟩)
  | .setIfAbsent key value milliseconds =>
      if milliseconds = 0 then
        (invalidLifetime, server)
      else if (server.find? now key).isSome then
        (.nil, server)
      else
        (.status "OK", server.put key ⟨.text value, some (now + Clock.milliseconds milliseconds)⟩)
  | .remove keys =>
      let (count, rest) := server.removeAll now keys
      (replyCount count, rest)
  | .addScore key score member =>
      match server.find? now key with
      | none => (replyCount 1, server.put key ⟨.sortedSet [(member, score)], none⟩)
      | some ⟨.text _, _⟩ => (wrongType, server)
      | some ⟨.sortedSet members, expiresAt⟩ =>
          (replyCount (if members.any fun entry => entry.1 = member then 0 else 1),
            server.put key ⟨.sortedSet (RedisValue.addMember members member score), expiresAt⟩)
  | .range key first last =>
      (server.replyRange now key fun members => RedisValue.membersBetween members first last,
        server)
  | .reverseRange key first last =>
      (server.replyRange now key fun members =>
        RedisValue.membersBetween members.reverse first last, server)

/-- Take some words for a command and perform it. -/
def execute (server : RedisServer) (now : Nat) (words : List String) : RedisReply × RedisServer :=
  match RedisCommand.ofWords? words with
  | none => (.error "ERR syntax error", server)
  | some command => server.perform now command

end RedisServer

end MarketStats
