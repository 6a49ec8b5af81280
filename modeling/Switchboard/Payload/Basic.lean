import Switchboard.Payload.Tag
import Switchboard.Rpc.Fault
import Switchboard.Rpc.Implementation

/-!
# Payloads and events

What travels through the tree: an event carries a request, the response to be
filled in, the handler it is meant for, if any, and whether it has been
handled. Besides texts of several types there are the payloads of remote calls.
-/

namespace Switchboard

inductive Payload where
  | text (value : String)
  | greeting (name : String)
  | reply (value : String)
  | tagged (tag : TypeTag) (value : String)
  | call (call : Rpc.MethodCall) (context : Rpc.CallContext)
  | outcome (result : Option (Except Rpc.Fault Json))

namespace Payload

def textTag : TypeTag := .root "test.text"

def greetingTag : TypeTag := .extending "test.greeting" textTag

def replyTag : TypeTag := .root "test.reply"

def callTag : TypeTag := .root "bindlet.rpc.request"

def outcomeTag : TypeTag := .root "bindlet.rpc.response"

def typeTag : Payload → TypeTag
  | text _ => textTag
  | greeting _ => greetingTag
  | reply _ => replyTag
  | tagged t _ => t
  | call .. => callTag
  | outcome _ => outcomeTag

/-- The tag of a name: the first declared one, else one of the tags that are always there. -/
def tagNamed? (declared : List TypeTag) (name : String) : Option TypeTag :=
  (declared ++ [.any, textTag, greetingTag, replyTag, callTag, outcomeTag]).find? fun t => t.name = name

/-- What a text or a greeting says. -/
def spoken? : Payload → Option String
  | text s => some s
  | greeting n => some ("hello " ++ n)
  | _ => none

/-- What a request says, also under a tag of its own. -/
def request? : Payload → Option String
  | tagged _ s => some s
  | p => p.spoken?

/-- What any text says. -/
def words? : Payload → Option String
  | reply s => some s
  | p => p.request?

/-- The reply with a new text. -/
def writeReply? (value : String) : Payload → Option Payload
  | reply _ => some (reply value)
  | _ => none

/-- The response with a new text, also under a tag of its own. -/
def write? (value : String) : Payload → Option Payload
  | tagged t _ => some (tagged t value)
  | p => p.writeReply? value

end Payload

structure RequestEvent where
  request : Payload
  response : Payload
  handler : Option String := none
  handled : Bool := false

end Switchboard
