import DatapackDebug.Session.Run

namespace DatapackDebug

/-!
# Messages for the client

A debug adapter answers each request of its client with one response, and tells it with events of
what happens on its own.

* `AdapterEvent`, `ResponseBody`, `AdapterMessage` — the messages;
* `AdapterMessage.toJson` — a message as it is sent.

Fields that are empty or zero are left out where the protocol allows it.
-/

/-- What the adapter tells on its own account. -/
inductive AdapterEvent where
  /-- breakpoints can be set from now on -/
  | initialized
  | stopped (reason : StopReason)
  | exited (code : Int)
  | terminated
  | output (category text : Text)
  /-- work for a request has begun; the client may cancel it by this name -/
  | progressStart (id title : Text) (request : Int)
  | progressEnd (id : Text)
deriving DecidableEq, Repr

/-- What a response holds. -/
inductive ResponseBody where
  | empty
  /-- what the adapter can do -/
  | capabilities
  | threads
  | continued
  | breakpoints (source : Text) (bs : List RequestedBreakpoint)
  /-- some of the frames, and the number of all -/
  | stackFrames (frames : List Frame) (total : Nat)
  | scopes (ss : List Scope)
  | variables (vs : List Variable)
deriving DecidableEq, Repr

/-- A message for the client. -/
inductive AdapterMessage where
  | response (request : Int) (command : Text) (body : ResponseBody)
  | failure (request : Int) (command message : Text)
  | event (e : AdapterEvent)
deriving DecidableEq, Repr

/-- The request that a message answers. -/
def AdapterMessage.request? : AdapterMessage → Option Int
  | .response request _ _ | .failure request _ _ => some request
  | .event _ => none

/-- The event that reports an event of the session. -/
def AdapterEvent.ofSessionEvent : SessionEvent → AdapterEvent
  | .stopped reason _ _ => .stopped reason
  | .exited code _ => .exited code
  | .terminated => .terminated

/-! ### JSON -/

namespace Json

/-- A number. -/
def ofInt (n : Int) : Json := .number (Text.ofInt n)

/-- A field. -/
def one (name : Text) (v : Json) : List (Text × Json) := [(name, v)]

/-- A field that is left out if its text is empty. -/
def optionalText (name t : Text) : List (Text × Json) :=
  if t.isEmpty then [] else [(name, .string t)]

/-- A field that is left out if its number is zero. -/
def optionalInt (name : Text) (n : Int) : List (Text × Json) :=
  if n == 0 then [] else [(name, ofInt n)]

end Json

/-- The only thread of a server. -/
def threadId : Int := 1

/-- The number that all errors have. -/
def errorId : Int := 12345

namespace AdapterEvent

/-- The name of an event. -/
def name : AdapterEvent → Text
  | .initialized => "initialized"
  | .stopped _ => "stopped"
  | .exited _ => "exited"
  | .terminated => "terminated"
  | .output _ _ => "output"
  | .progressStart _ _ _ => "progressStart"
  | .progressEnd _ => "progressEnd"

/-- What an event holds. -/
def body? : AdapterEvent → Option (List (Text × Json))
  | .initialized => none
  | .stopped reason => some [("reason", .string reason.text), ("threadId", .ofInt threadId),
      ("allThreadsStopped", .bool true)]
  | .exited code => some [("exitCode", .ofInt code)]
  | .terminated => some []
  | .output category text => some [("category", .string category), ("output", .string text)]
  | .progressStart id title request =>
    some (Json.one "progressId" (.string id) ++ Json.one "title" (.string title) ++
      Json.optionalInt "requestId" request ++ Json.one "cancellable" (.bool true))
  | .progressEnd id => some [("progressId", .string id)]

end AdapterEvent

namespace ResponseBody

/-- A breakpoint of a source. -/
def breakpointJson (source : Text) (b : RequestedBreakpoint) : Json :=
  .object (Json.one "verified" (.bool b.isVerified) ++ Json.optionalText "message" b.message ++
    Json.one "source" (.object (Json.optionalText "path" source)) ++
    Json.optionalInt "line" b.line)

/-- A frame. -/
def frameJson (f : Frame) : Json :=
  .object [("id", .ofInt f.depth), ("name", .string f.function.text),
    ("source", .object (Json.optionalText "name" (Path.base f.path) ++
      Json.optionalText "path" f.path)),
    ("line", .ofInt f.line), ("column", .ofInt f.column)]

/-- The scores of a frame. -/
def scopeJson (s : Scope) : Json :=
  .object [("name", .string s.name), ("variablesReference", .ofInt s.reference),
    ("expensive", .bool true)]

/-- A score. -/
def variableJson (v : Variable) : Json :=
  .object [("name", .string v.objective), ("value", .string v.text), ("type", .string "int"),
    ("variablesReference", .ofInt 0)]

/-- The fields of a body, if there is one. -/
def fields? : ResponseBody → Option (List (Text × Json))
  | .empty => none
  | .capabilities => some [("supportsConfigurationDoneRequest", .bool true),
      ("supportsCancelRequest", .bool true), ("supportsTerminateRequest", .bool true)]
  | .threads =>
    some [("threads", .array [.object [("id", .ofInt threadId), ("name", .string "Server")]])]
  | .continued => some [("allThreadsContinued", .bool true)]
  | .breakpoints source bs => some [("breakpoints", .array (bs.map (breakpointJson source)))]
  | .stackFrames frames total =>
    some (("stackFrames", .array (frames.map frameJson)) :: Json.optionalInt "totalFrames" total)
  | .scopes ss => some [("scopes", .array (ss.map scopeJson))]
  | .variables vs => some [("variables", .array (vs.map variableJson))]

end ResponseBody

namespace AdapterMessage

/-- The field of a body, if there is one. -/
def bodyField : Option (List (Text × Json)) → List (Text × Json)
  | none => []
  | some fields => [("body", .object fields)]

/-- The fields that all responses have. -/
def responseFields (request : Int) (success : Bool) (command : Text) : List (Text × Json) :=
  [("seq", .ofInt 0), ("type", .string "response"), ("request_seq", .ofInt request),
    ("success", .bool success), ("command", .string command)]

/-- A message as it is sent. -/
def toJson : AdapterMessage → Json
  | .response request command body =>
    .object (responseFields request true command ++ bodyField body.fields?)
  | .failure request command message =>
    .object (responseFields request false command ++ Json.optionalText "message" message ++
      bodyField (some [("error", .object [("id", .ofInt errorId), ("format", .string message),
        ("showUser", .bool false)])]))
  | .event e =>
    .object (Json.one "seq" (.ofInt 0) ++ Json.one "type" (.string "event") ++
      Json.one "event" (.string e.name) ++ bodyField e.body?)

end AdapterMessage

end DatapackDebug
