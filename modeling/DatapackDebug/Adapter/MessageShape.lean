import DatapackDebug.Json.Shape

namespace DatapackDebug

/-!
# The shapes of protocol messages

What the requests, responses and events of the debug adapter protocol hold.  Values that can hold
values of their own kind are described down to a depth.

* `MessageShape.requests` — the arguments of the requests;
* `MessageShape.responses` — the bodies of their responses;
* `MessageShape.events` — the bodies of the events.

A message without arguments or body has no shape for them.
-/

namespace MessageShape

open Json

/-- Fields of the same shape. -/
def alike (shape : Shape) (names : List String) : List (Text × Shape) :=
  names.map fun name => (Text.ofString name, shape)

/-- A record with texts, integers, truth values and other fields. -/
def record (texts integers bools : List String) (others : List (Text × Shape)) : Shape :=
  .record [] (alike .text texts ++ alike .integer integers ++ alike .bool bools ++ others)

/-- A record with one field. -/
def holding (name : Text) (shape : Shape) : Shape := .record [] [(name, shape)]

/-! ### Values in messages -/

/-- A source. -/
def source : Nat → Shape
  | 0 => .any
  | depth + 1 =>
    record ["name", "path", "presentationHint", "origin"] ["sourceReference"] []
      [("sources", .list (source depth)), ("adapterData", .any),
        ("checksums", .list (record ["algorithm", "checksum"] [] [] []))]

/-- How values are to be written. -/
def valueFormat : Shape := record [] [] ["hex"] []

/-- How frames are to be written. -/
def frameFormat : Shape :=
  record [] []
    ["hex", "parameters", "parameterTypes", "parameterNames", "parameterValues", "line", "module",
      "includeAll"] []

/-- The names of the fields that tell where something starts and ends. -/
def span : List String := ["line", "column", "endLine", "endColumn"]

/-- A breakpoint that is to be set at a line. -/
def sourceBreakpoint : Shape :=
  record ["condition", "hitCondition", "logMessage"] ["line", "column"] [] []

/-- A breakpoint that was set. -/
def breakpoint (depth : Nat) : Shape :=
  record ["message", "instructionReference", "reason"] (["id", "offset"] ++ span) ["verified"]
    [("source", source depth)]

/-- A part of a program. -/
def moduleInfo : Shape :=
  record
    ["name", "path", "version", "symbolStatus", "symbolFilePath", "dateTimeStamp", "addressRange"]
    [] ["isOptimized", "isUserCode"] [("id", .any)]

/-- What an adapter can do. -/
def capabilities : Shape :=
  record [] []
    ["supportsConfigurationDoneRequest", "supportsFunctionBreakpoints",
      "supportsConditionalBreakpoints", "supportsHitConditionalBreakpoints",
      "supportsEvaluateForHovers", "supportsStepBack", "supportsSetVariable",
      "supportsRestartFrame", "supportsGotoTargetsRequest", "supportsStepInTargetsRequest",
      "supportsCompletionsRequest", "supportsModulesRequest", "supportsRestartRequest",
      "supportsExceptionOptions", "supportsValueFormattingOptions",
      "supportsExceptionInfoRequest", "supportTerminateDebuggee", "supportSuspendDebuggee",
      "supportsDelayedStackTraceLoading", "supportsLoadedSourcesRequest", "supportsLogPoints",
      "supportsTerminateThreadsRequest", "supportsSetExpression", "supportsTerminateRequest",
      "supportsDataBreakpoints", "supportsReadMemoryRequest", "supportsWriteMemoryRequest",
      "supportsDisassembleRequest", "supportsCancelRequest",
      "supportsBreakpointLocationsRequest", "supportsClipboardContext",
      "supportsSteppingGranularity", "supportsInstructionBreakpoints",
      "supportsExceptionFilterOptions", "supportsSingleThreadExecutionRequests"]
    [("exceptionBreakpointFilters", .list
        (record ["filter", "label", "description", "conditionDescription"] []
          ["default", "supportsCondition"] [])),
      ("completionTriggerCharacters", .list .text),
      ("additionalModuleColumns", .list
        (record ["attributeName", "label", "format", "type"] ["width"] [] [])),
      ("supportedChecksumAlgorithms", .list .text)]

/-- How a variable is to be shown. -/
def presentationHint : Shape :=
  record ["kind", "visibility"] [] ["lazy"] [("attributes", .list .text)]

/-- The names of the fields that tell how to ask for the parts of a value. -/
def parts : List String := ["variablesReference", "namedVariables", "indexedVariables"]

/-- A frame of the stack. -/
def stackFrame (depth : Nat) : Shape :=
  record ["name", "instructionPointerReference", "presentationHint"] ("id" :: span) ["canRestart"]
    [("source", source depth), ("moduleId", .any)]

/-- The names of the variables of a frame that belong together. -/
def scope (depth : Nat) : Shape :=
  record ["name", "presentationHint"] (parts ++ span) ["expensive"] [("source", source depth)]

/-- A variable. -/
def variableInfo : Shape :=
  record ["name", "value", "type", "evaluateName", "memoryReference"] parts []
    [("presentationHint", presentationHint)]

/-- A place that a step or a jump can lead to. -/
def target : Shape := record ["label", "instructionPointerReference"] ("id" :: span) [] []

/-- A way to complete a text. -/
def completion : Shape :=
  record ["label", "text", "sortText", "detail", "type"]
    ["start", "length", "selectionStart", "selectionLength"] [] []

/-- What is known of an exception, and of those that it comes from. -/
def exception : Nat → Shape
  | 0 => .any
  | depth + 1 =>
    record ["message", "typeName", "fullTypeName", "evaluateName", "stackTrace"] [] []
      [("innerException", .list (exception depth))]

/-- An instruction of a machine. -/
def instruction (depth : Nat) : Shape :=
  record ["address", "instructionBytes", "instruction", "symbol", "presentationHint"] span []
    [("location", source depth)]

/-- Why a request failed. -/
def failure : Shape :=
  record ["format", "url", "urlLabel"] ["id"] ["sendTelemetry", "showUser"]
    [("variables", .entries .text)]

/-! ### Requests -/

/-- The arguments of the requests that start and end a session. -/
def sessionRequests : List (Text × Option Shape) :=
  [("cancel", some (.optional (record ["progressId"] ["requestId"] [] []))),
    ("runInTerminal", some (record ["kind", "title", "cwd"] [] ["argsCanBeInterpretedByShell"]
      [("args", .list .text), ("env", .entries .any)])),
    ("startDebugging", some (record ["request"] [] [] [("configuration", .entries .any)])),
    ("initialize", some (record ["clientID", "clientName", "adapterID", "locale", "pathFormat"] []
      ["linesStartAt1", "columnsStartAt1", "supportsVariableType", "supportsVariablePaging",
        "supportsRunInTerminalRequest", "supportsMemoryReferences", "supportsProgressReporting",
        "supportsInvalidatedEvent", "supportsMemoryEvent",
        "supportsArgsCanBeInterpretedByShell", "supportsStartDebuggingRequest"] [])),
    ("configurationDone", some (record [] [] [] [])),
    ("launch", some .raw),
    ("attach", some .raw),
    ("restart", some .raw),
    ("disconnect", some (record [] [] ["restart", "terminateDebuggee", "suspendDebuggee"] [])),
    ("terminate", some (record [] [] ["restart"] []))]

/-- The arguments of the requests about breakpoints. -/
def breakpointRequests (depth : Nat) : List (Text × Option Shape) :=
  [("breakpointLocations", some (record [] span []
      [("source", source depth)])),
    ("setBreakpoints", some (record [] [] ["sourceModified"]
      [("source", source depth), ("breakpoints", .list sourceBreakpoint),
        ("lines", .list .integer)])),
    ("setFunctionBreakpoints", some (record [] [] []
      [("breakpoints", .list (record ["name", "condition", "hitCondition"] [] [] []))])),
    ("setExceptionBreakpoints", some (record [] [] []
      [("filters", .list .text),
        ("filterOptions", .list (record ["filterId", "condition"] [] [] [])),
        ("exceptionOptions", .list (record ["breakMode"] [] []
          [("path", .list (record [] [] ["negate"] [("names", .list .text)]))]))])),
    ("dataBreakpointInfo", some (record ["name"]
      ["variablesReference", "frameId", "bytes"] ["asAddress"] [])),
    ("setDataBreakpoints", some (record [] [] []
      [("breakpoints", .list
        (record ["dataId", "accessType", "condition", "hitCondition"] [] [] []))])),
    ("setInstructionBreakpoints", some (record [] [] []
      [("breakpoints", .list (record
        ["instructionReference", "condition", "hitCondition"] ["offset"] [] []))]))]

/-- The arguments of the requests that let the program go on. -/
def stepRequests : List (Text × Option Shape) :=
  [("continue", some (record [] ["threadId"] ["singleThread"] [])),
    ("next", some (record ["granularity"] ["threadId"] ["singleThread"] [])),
    ("stepIn", some (record ["granularity"] ["threadId", "targetId"] ["singleThread"] [])),
    ("stepOut", some (record ["granularity"] ["threadId"] ["singleThread"] [])),
    ("stepBack", some (record ["granularity"] ["threadId"] ["singleThread"] [])),
    ("reverseContinue", some (record [] ["threadId"] ["singleThread"] [])),
    ("restartFrame", some (record [] ["frameId"] [] [])),
    ("goto", some (record [] ["threadId", "targetId"] [] [])),
    ("pause", some (record [] ["threadId"] [] []))]

/-- The arguments of the requests that look at the program. -/
def inspectionRequests (depth : Nat) : List (Text × Option Shape) :=
  [("stackTrace", some (record [] ["threadId", "startFrame", "levels"] []
      [("format", frameFormat)])),
    ("scopes", some (record [] ["frameId"] [] [])),
    ("variables", some (record ["filter"] ["variablesReference", "start", "count"] []
      [("format", valueFormat)])),
    ("setVariable", some (record ["name", "value"] ["variablesReference"] []
      [("format", valueFormat)])),
    ("source", some (record [] ["sourceReference"] [] [("source", source depth)])),
    ("threads", none),
    ("terminateThreads", some (record [] [] [] [("threadIds", .list .integer)])),
    ("modules", some (record [] ["startModule", "moduleCount"] [] [])),
    ("loadedSources", some (record [] [] [] [])),
    ("evaluate", some (record ["expression", "context"] ["frameId"] []
      [("format", valueFormat)])),
    ("setExpression", some (record ["expression", "value"] ["frameId"] []
      [("format", valueFormat)])),
    ("stepInTargets", some (record [] ["frameId"] [] [])),
    ("gotoTargets", some (record [] ["line", "column"] [] [("source", source depth)])),
    ("completions", some (record ["text"] ["frameId", "column", "line"] [] [])),
    ("exceptionInfo", some (record [] ["threadId"] [] [])),
    ("readMemory", some (record ["memoryReference"] ["offset", "count"] [] [])),
    ("writeMemory", some (record ["memoryReference", "data"] ["offset"] ["allowPartial"] [])),
    ("disassemble", some (record ["memoryReference"]
      ["offset", "instructionOffset", "instructionCount"] ["resolveSymbols"] []))]

/-- The requests of the protocol. -/
def requests (depth : Nat) : List (Text × Option Shape) :=
  sessionRequests ++ breakpointRequests depth ++ stepRequests ++ inspectionRequests depth

/-! ### Responses -/

/-- The bodies of the responses about the session. -/
def controlResponses : List (Text × Option Shape) :=
  [("initialize", some capabilities),
    ("runInTerminal", some (record [] ["processId", "shellProcessId"] [] [])),
    ("continue", some (record [] [] ["allThreadsContinued"] []))]

/-- The bodies of the responses about breakpoints. -/
def breakpointResponses (depth : Nat) : List (Text × Option Shape) :=
  let set := some (holding "breakpoints" (.list (breakpoint depth)))
  [("breakpointLocations", some (holding "breakpoints" (.list (record [] span [] [])))),
    ("setBreakpoints", set),
    ("setFunctionBreakpoints", set),
    ("setExceptionBreakpoints", set),
    ("setDataBreakpoints", set),
    ("setInstructionBreakpoints", set),
    ("dataBreakpointInfo", some (record ["description"] [] ["canPersist"]
      [("dataId", .any), ("accessTypes", .list .text)]))]

/-- The bodies of the responses that tell of the program. -/
def inspectionResponses (depth : Nat) : List (Text × Option Shape) :=
  [("stackTrace", some (record [] ["totalFrames"] []
      [("stackFrames", .list (stackFrame depth))])),
    ("scopes", some (holding "scopes" (.list (scope depth)))),
    ("variables", some (holding "variables" (.list variableInfo))),
    ("setVariable", some (record ["value", "type"] parts [] [])),
    ("source", some (record ["content", "mimeType"] [] [] [])),
    ("threads", some (holding "threads" (.list (record ["name"] ["id"] [] [])))),
    ("modules", some (record [] ["totalModules"] [] [("modules", .list moduleInfo)])),
    ("loadedSources", some (holding "sources" (.list (source depth)))),
    ("evaluate", some (record ["result", "type", "memoryReference"] parts []
      [("presentationHint", presentationHint)])),
    ("setExpression", some (record ["value", "type"] parts []
      [("presentationHint", presentationHint)])),
    ("stepInTargets", some (holding "targets" (.list (record ["label"] ("id" :: span) [] [])))),
    ("gotoTargets", some (holding "targets" (.list target))),
    ("completions", some (holding "targets" (.list completion))),
    ("exceptionInfo", some (record ["exceptionId", "description", "breakMode"] [] []
      [("details", exception depth)])),
    ("readMemory", some (record ["address", "data"] ["unreadableBytes"] [] [])),
    ("writeMemory", some (record [] ["offset", "bytesWritten"] [] [])),
    ("disassemble", some (holding "instructions" (.list (instruction depth))))]

/-- The bodies of the responses to all requests. -/
def responses (depth : Nat) : List (Text × Option Shape) :=
  let bodies := controlResponses ++ breakpointResponses depth ++ inspectionResponses depth
  (requests 0).map fun (name, _) => (name, (bodies.lookup name).join)

/-- The body of a response to a request that failed. -/
def failureBody : Shape := holding "error" failure

/-! ### Events -/

/-- The bodies of the events that tell of the program. -/
def programEvents (depth : Nat) : List (Text × Option Shape) :=
  [("initialized", none),
    ("stopped", some (record ["reason", "description", "text"] ["threadId"]
      ["preserveFocusHint", "allThreadsStopped"] [("hitBreakpointIds", .list .integer)])),
    ("continued", some (record [] ["threadId"] ["allThreadsContinued"] [])),
    ("exited", some (record [] ["exitCode"] [] [])),
    ("terminated", some (holding "restart" .any)),
    ("thread", some (record ["reason"] ["threadId"] [] [])),
    ("output", some (record ["category", "output", "group"]
      ["variablesReference", "line", "column"] []
      [("source", source depth), ("data", .any)])),
    ("breakpoint", some (record ["reason"] [] [] [("breakpoint", breakpoint depth)])),
    ("module", some (record ["reason"] [] [] [("module", moduleInfo)])),
    ("loadedSource", some (record ["reason"] [] [] [("source", source depth)])),
    ("process", some (record ["name", "startMethod"] ["systemProcessId", "pointerSize"]
      ["isLocalProcess"] []))]

/-- The bodies of the other events. -/
def adapterEvents : List (Text × Option Shape) :=
  [("capabilities", some (holding "capabilities" capabilities)),
    ("progressStart", some (record ["progressId", "title", "message"] ["requestId", "percentage"]
      ["cancellable"] [])),
    ("progressUpdate", some (record ["progressId", "message"] ["percentage"] [] [])),
    ("progressEnd", some (record ["progressId", "message"] [] [] [])),
    ("invalidated", some (record [] ["threadId", "stackFrameId"] [] [("areas", .list .text)])),
    ("memory", some (record ["memoryReference"] ["offset", "count"] [] []))]

/-- The bodies of all events. -/
def events (depth : Nat) : List (Text × Option Shape) := programEvents depth ++ adapterEvents

/-! ### All messages -/

/-- The fields that tell what a message is. -/
def messageFields : List (Text × Shape) :=
  alike .integer ["seq"] ++ alike .text ["type", "command", "event"] ++ alike .bool ["success"]

/-- The field of a name, if a message has it. -/
def fieldOf (name : Text) (shape : Option Shape) : List (Text × Shape) :=
  shape.toList.map fun s => (name, s)

/-- The fields of all requests. -/
def requestFields : List (Text × Shape) := alike .integer ["seq"] ++ alike .text ["type", "command"]

/-- The fields of all responses. -/
def responseFields : List (Text × Shape) :=
  alike .integer ["seq", "request_seq"] ++ alike .bool ["success"] ++
    alike .text ["type", "command", "message"]

/-- The fields of all events. -/
def eventFields : List (Text × Shape) := alike .integer ["seq"] ++ alike .text ["type", "event"]

end MessageShape

end DatapackDebug
