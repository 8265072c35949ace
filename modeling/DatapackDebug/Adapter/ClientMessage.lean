import DatapackDebug.Adapter.MessageShape
import DatapackDebug.Adapter.Packet

namespace DatapackDebug

/-!
# Messages of the client

Each message has a type and a name, which tell what else it holds.  Whether a message can be read
depends on all of its fields, also on those that the adapter makes no use of.

* `ClientCommand`, `ClientRequest` — what the client asks for;
* `ClientMessage` — a request, a cancellation, or something that is not answered like a request;
* `ClientMessage.ofJson?` — the message in a JSON value, if it can be read;
* `ClientMessage.readAll` — the messages in a stream of packets, up to the first that cannot be
  read.
-/

/-- What the client asks for. -/
inductive ClientCommand where
  /-- the client introduces itself -/
  | introduce (supportsProgress : Bool)
  /-- the arguments are not read before the request is handled -/
  | launch (arguments : Option Json)
  | setBreakpoints (source : Text) (lines : List Int) (sourceModified : Bool)
  | configurationDone
  | threads
  | continue
  | next
  | stepIn
  | stepOut
  | stackTrace (startFrame levels : Int)
  | scopes (frame : Int)
  | variables (reference : Int)
  | terminate
  | disconnect
  /-- one of the other requests of the protocol -/
  | unsupported

/-- A request that is handled in its turn. -/
structure ClientRequest where
  seq : Int
  /-- the name of the command -/
  command : Text
  what : ClientCommand

/-- A message of the client. -/
inductive ClientMessage where
  | request (r : ClientRequest)
  /-- cancel a request, or the one that a progress belongs to if that is named -/
  | cancel (seq : Int) (request : Int) (progress : Text)
  /-- an event or a response -/
  | notice
  /-- a message that the protocol does not know; `part` tells what is unknown -/
  | unsupported (seq : Int) (part : Text)

/-! ### Reading messages -/

namespace ClientMessage

open Json MessageShape

/-- A value in a record of some fields, if it fits. -/
def fitted? (fields : List (Text × Shape)) (v : Json) : Option Slot :=
  match fit (.record [] fields) v with
  | ⟨slot, none⟩ => some slot
  | _ => none

/-- What a request with these arguments asks for. -/
def commandOf (name : Text) (a : Slot) : ClientCommand :=
  if name == "initialize" then .introduce (a.boolField "supportsProgressReporting")
  else if name == "launch" then .launch a.value?
  else if name == "setBreakpoints" then
    .setBreakpoints ((a.field "source").textField "path")
      ((a.itemsField "breakpoints").map (·.intField "line")) (a.boolField "sourceModified")
  else if name == "configurationDone" then .configurationDone
  else if name == "threads" then .threads
  else if name == "continue" then .continue
  else if name == "next" then .next
  else if name == "stepIn" then .stepIn
  else if name == "stepOut" then .stepOut
  else if name == "stackTrace" then .stackTrace (a.intField "startFrame") (a.intField "levels")
  else if name == "scopes" then .scopes (a.intField "frameId")
  else if name == "variables" then .variables (a.intField "variablesReference")
  else if name == "terminate" then .terminate
  else if name == "disconnect" then .disconnect
  else .unsupported

/-- The request in a value that is of the command `name`. -/
def requestOf? (depth : Nat) (seq : Int) (name : Text) (v : Json) : Option ClientMessage :=
  match (requests depth).lookup name with
  | none => some (.unsupported seq "Request")
  | some shape => do
    let whole ← fitted? (requestFields ++ fieldOf "arguments" shape) v
    let a := whole.field "arguments"
    if name == "cancel" then some (.cancel seq (a.intField "requestId") (a.textField "progressId"))
    else some (.request ⟨seq, name, commandOf name a⟩)

/-- A message that is not answered, with some fields and a body. -/
def noticeOf? (fields : List (Text × Shape)) (body : Option Shape) (v : Json) :
    Option ClientMessage :=
  (fitted? (fields ++ fieldOf "body" body) v).map fun _ => .notice

/-- The message in a value, if it can be read; what is nested is read to a depth. -/
def ofJsonAt? (depth : Nat) (v : Json) : Option ClientMessage := do
  let base ← fitted? messageFields v
  let seq := base.intField "seq"
  let type := base.textField "type"
  let command := base.textField "command"
  if type == "request" then requestOf? depth seq command v
  else if type == "response" then
    if !base.boolField "success" then noticeOf? responseFields (some failureBody) v
    else match (responses depth).lookup command with
      | none => some (.unsupported seq "Response")
      | some body => noticeOf? responseFields body v
  else if type == "event" then
    match (events depth).lookup (base.textField "event") with
    | none => some (.unsupported seq "Event")
    | some body => noticeOf? eventFields body v
  else some (.unsupported seq "ProtocolMessage")

/-- The message in a value, if it can be read. -/
def ofJson? (v : Json) : Option ClientMessage := ofJsonAt? v.height v

/-- The message in a document, if it can be read. -/
def parse? (t : Text) : Option ClientMessage :=
  match Json.parse t with
  | .ok v => ofJson? v
  | .error _ => none

/-- The messages in a stream of packets, up to the first that cannot be read. -/
def readAll : Nat → Text → List ClientMessage
  | 0, _ => []
  | fuel + 1, input =>
    match Packet.read input with
    | .incomplete | .malformed => []
    | .packet content rest =>
      match parse? content with
      | none => []
      | some m => m :: readAll fuel rest

end ClientMessage

end DatapackDebug
