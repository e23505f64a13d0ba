import MarketStats.Failure
import MarketStats.Redis.Command

/-!
# Redis replies

A reply answers a request only if it has a form from which the answer can be
read.  A reply with an error anywhere inside it is a failure, and so is one
with a number that does not fit, and the lack of a reply.
-/

namespace MarketStats

/-- What a Redis server replies to a command. -/
inductive RedisReply
  | nil
  | bulk (text : String)
  | status (text : String)
  | int (value : Int)
  | array (items : List RedisReply)
  | error (text : String)

namespace RedisReply

def isWord (value : Int) : Bool :=
  decide (-0x8000000000000000 ≤ value ∧ value < 0x8000000000000000)

mutual

/-- The first error inside a reply.  A number that is no signed integer of
sixty-four bits is one. -/
def error? : RedisReply → Option String
  | .error text => some text
  | .int value => if isWord value then none else some "the number does not fit"
  | .array items => firstError? items
  | _ => none

def firstError? : List RedisReply → Option String
  | [] => none
  | item :: items =>
      match error? item with
      | some text => some text
      | none => firstError? items

end

def failure {α : Type} (text : String) : Except StatsError α :=
  .error (.transient ("redis: " ++ text))

def unexpected {α : Type} : Except StatsError α :=
  failure "the reply does not have the expected form"

def asText : RedisReply → Except StatsError String
  | .bulk text => .ok text
  | .status text => .ok text
  | .int value => .ok value.repr
  | _ => unexpected

def asOptionalText : RedisReply → Except StatsError (Option String)
  | .nil => .ok none
  | reply => (asText reply).map some

def asTexts : RedisReply → Except StatsError (List String)
  | .nil => .ok []
  | .bulk text => .ok [text]
  | .array items => items.mapM asText
  | _ => unexpected

end RedisReply

namespace SharedRequest

def readReply (reply : RedisReply) : (request : SharedRequest) → Except StatsError request.Answer
  | .get _ => reply.asOptionalText
  | .put _ _ _ => .ok ()
  | .keep _ _ => .ok ()
  | .remove _ => .ok ()
  | .removeAll _ => .ok ()
  | .claim _ _ _ => reply.asOptionalText.map Option.isSome
  | .rank _ _ _ => .ok ()
  | .ranked _ _ _ _ => reply.asTexts

/-- Answer a request by way of a server.  Removing no keys is answered as if
the server had said that it removed none. -/
def askRedis (request : SharedRequest) (server : RedisCommand → Except StatsError RedisReply) :
    Except StatsError request.Answer :=
  match request.redisCommand? with
  | none => request.readReply (.int 0)
  | some command =>
      (server command).bind fun reply =>
        match reply.error? with
        | some text => RedisReply.failure text
        | none => request.readReply reply

end SharedRequest

end MarketStats
