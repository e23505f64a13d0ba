import MarketStats.Cache.Shared
import MarketStats.Double.Written

/-!
# Redis commands

A shared tier may be kept by a Redis server.  These are the commands that it is
sent, and the words of which they consist.
-/

namespace MarketStats

/-- A command to a Redis server; lifetimes are in milliseconds. -/
inductive RedisCommand
  | get (key : String)
  | setFor (key : String) (milliseconds : Nat) (value : String)
  | set (key value : String)
  | setIfAbsent (key value : String) (milliseconds : Nat)
  | remove (keys : List String)
  | addScore (key : String) (score : Double) (member : String)
  | range (key : String) (first last : Int)
  | reverseRange (key : String) (first last : Int)
deriving DecidableEq, Repr

namespace RedisCommand

def words : RedisCommand → List String
  | .get key => ["GET", key]
  | .setFor key milliseconds value => ["PSETEX", key, milliseconds.repr, value]
  | .set key value => ["SET", key, value]
  | .setIfAbsent key value milliseconds => ["SET", key, value, "NX", "PX", milliseconds.repr]
  | .remove keys => "DEL" :: keys
  | .addScore key score member => ["ZADD", key, score.written, member]
  | .range key first last => ["ZRANGE", key, first.repr, last.repr]
  | .reverseRange key first last => ["ZREVRANGE", key, first.repr, last.repr]

/-- A lifetime in whole milliseconds, of which sixty-four bits are sent.  It is
at least one, since the server refuses a lifetime of zero. -/
def lifetimeMilliseconds (lifetime : Nat) : Nat :=
  max (Clock.wholeMilliseconds lifetime % UInt64.size) 1

end RedisCommand

namespace SharedRequest

/-- The command for a request.  Nothing has to be sent to remove no keys. -/
def redisCommand? : SharedRequest → Option RedisCommand
  | .get key => some (.get key)
  | .put key value lifetime =>
      some (.setFor key (RedisCommand.lifetimeMilliseconds lifetime) value)
  | .keep key value => some (.set key value)
  | .remove key => some (.remove [key])
  | .removeAll [] => none
  | .removeAll (key :: keys) => some (.remove (key :: keys))
  | .claim key value lifetime =>
      some (.setIfAbsent key value (RedisCommand.lifetimeMilliseconds lifetime))
  | .rank key member score => some (.addScore key score member)
  | .ranked key first last descending =>
      some (if descending then .reverseRange key first last else .range key first last)

end SharedRequest

end MarketStats
