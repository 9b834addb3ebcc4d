import Mathlib.Data.List.AList
import Rusmes.Jmap.Types
import Rusmes.Proto.Mail

/-!
The batch of method calls of `rusmes-jmap`: what makes a request acceptable, and how the
arguments of one call take values out of the answers to the calls before it. An argument
object is walked in the order of its entries.
-/

namespace Rusmes

open WireText

abbrev JsonMap := AList fun _ : Text => JsonValue

inductive CallArguments
  | object (members : JsonMap)
  | other (value : JsonValue) (plain : value.asObject = none)

structure MethodCall where
  method : Text
  arguments : CallArguments
  id : Text

structure MethodResponse where
  name : Text
  body : JsonValue
  id : Text

inductive JmapErrorType
  | notRequest
  | limit
  | unknownCapability
  | unknownMethod
  | invalidArguments
  | serverFail
  deriving DecidableEq, Repr

def errorUrn : Text := "urn:ietf:params:jmap:error:".toList

def JmapErrorType.asStr : JmapErrorType → Text
  | .notRequest => errorUrn ++ "notRequest".toList
  | .limit => errorUrn ++ "limit".toList
  | .unknownCapability => errorUrn ++ "unknownCapability".toList
  | .unknownMethod => errorUrn ++ "unknownMethod".toList
  | .invalidArguments => errorUrn ++ "invalidArguments".toList
  | .serverFail => errorUrn ++ "serverFail".toList

structure JmapError where
  errorType : JmapErrorType
  status : Option Nat
  detail : Option Text
  limit : Option Text
  deriving DecidableEq, Repr

def JmapError.withDetail (errorType : JmapErrorType) (detail : Text) : JmapError :=
  { errorType, status := none, detail := some detail, limit := none }

def JmapError.toValue (error : JmapError) : JsonValue :=
  .object
    (("type".toList, .string error.errorType.asStr) ::
      ((error.status.map fun status => ("status".toList, .number (decimal status))).toList ++
        (error.detail.map fun detail => ("detail".toList, .string detail)).toList ++
        (error.limit.map fun limit => ("limit".toList, .string limit)).toList))

def errorResponse (error : JmapError) (id : Text) : MethodResponse :=
  { name := "error".toList, body := error.toValue, id }

structure ResultReference where
  resultOf : Text
  name : Text
  path : Text
  deriving DecidableEq, Repr

/-- What the JSON library does with a value: the pointer into it, and its reading as a
reference. -/
structure JsonReader where
  pointer : JsonValue → Text → Option JsonValue
  asReference : JsonValue → Option ResultReference

structure CompletedCall where
  id : Text
  method : Text
  body : JsonValue

inductive BackRefError
  | resultNotFound (id name : Text)
  | resultWasError (id : Text)
  | pathNotFound (path id : Text)
  deriving DecidableEq, Repr

def quotedDebug (text : Text) : Text := '"' :: text.flatMap escapeDebug ++ ['"']

def BackRefError.display : BackRefError → Text
  | .resultNotFound id name =>
    "result not found: no completed call with id=".toList ++ quotedDebug id ++
      " and method=".toList ++ quotedDebug name
  | .resultWasError id =>
    "referenced call id=".toList ++ quotedDebug id ++ " returned an error response".toList
  | .pathNotFound path id =>
    "path ".toList ++ quotedDebug path ++
      " resolved to nothing in the response for call id=".toList ++ quotedDebug id

def bodyType : JsonValue → Option Text
  | .object entries =>
    match entries.lookup "type".toList with
    | some (.string value) => some value
    | _ => none
  | _ => none

def isErrorResponse (body : JsonValue) : Bool :=
  ((bodyType body).map fun kind => errorUrn.isPrefixOf kind).getD false

section References

variable (reader : JsonReader) (completed : List CompletedCall)

def answersTo (reference : ResultReference) (entry : CompletedCall) : Bool :=
  entry.id = reference.resultOf && entry.method = reference.name

def extractReferenced (reference : ResultReference) : Except BackRefError JsonValue :=
  match completed.find? (answersTo reference) with
  | none => .error (.resultNotFound reference.resultOf reference.name)
  | some entry =>
    if isErrorResponse entry.body then .error (.resultWasError reference.resultOf)
    else
      match reader.pointer entry.body reference.path with
      | none => .error (.pathNotFound reference.path reference.resultOf)
      | some value => .ok value

def resolveKey (hashKey : Text) (arguments : JsonMap) : Except BackRefError JsonMap :=
  match (arguments.lookup hashKey).bind reader.asReference with
  | none => .ok arguments
  | some reference =>
    (extractReferenced reader completed reference).map fun extracted =>
      (arguments.erase hashKey).insert (hashKey.drop 1) extracted

def resolveKeys : List Text → JsonMap → Except BackRefError JsonMap
  | [], arguments => .ok arguments
  | hashKey :: rest, arguments =>
    match resolveKey reader completed hashKey arguments with
    | .error error => .error error
    | .ok resolved => resolveKeys rest resolved

def hashKeys (keys : List Text) : List Text := keys.filter fun key => key.head? = some '#'

def resolveBackReferences (arguments : JsonMap) : Except BackRefError JsonMap :=
  resolveKeys reader completed (hashKeys arguments.keys) arguments

def resolveBackRefsInCall (call : MethodCall) : Except BackRefError MethodCall :=
  match call.arguments with
  | .object members =>
    (resolveBackReferences reader completed members).map fun resolved =>
      { call with arguments := .object resolved }
  | .other _ _ => .ok call

end References

/-- What stands behind the endpoint: its JSON library, and each method with the reading of its
arguments and the writing of its answer. -/
structure JmapApi (σ : Type) where
  reader : JsonReader
  runMethod : Text → CallArguments → Principal → Effect Text σ JsonValue

def pushMethods : List Text :=
  ["PushSubscription/get".toList, "PushSubscription/set".toList]

def dispatchedMethods : List Text :=
  ["Email/get".toList, "Email/set".toList, "Email/query".toList, "Email/changes".toList,
    "Email/queryChanges".toList, "Email/copy".toList, "Email/import".toList,
    "Email/parse".toList, "EmailSubmission/get".toList, "EmailSubmission/set".toList,
    "EmailSubmission/query".toList, "EmailSubmission/changes".toList, "Mailbox/get".toList,
    "Mailbox/set".toList, "Mailbox/query".toList, "Mailbox/changes".toList,
    "Mailbox/queryChanges".toList, "Thread/get".toList, "Thread/changes".toList,
    "SearchSnippet/get".toList, "Identity/get".toList, "Identity/set".toList,
    "Identity/changes".toList, "VacationResponse/get".toList, "VacationResponse/set".toList]

def mailCapability : Text := "urn:ietf:params:jmap:mail".toList
def submissionCapability : Text := "urn:ietf:params:jmap:submission".toList
def vacationCapability : Text := "urn:ietf:params:jmap:vacationresponse".toList

def methodCapabilities : List (Text × Text) :=
  [("Email/".toList, mailCapability), ("Mailbox/".toList, mailCapability),
    ("Thread/".toList, mailCapability), ("SearchSnippet/".toList, mailCapability),
    ("EmailSubmission/".toList, submissionCapability),
    ("Identity/".toList, submissionCapability),
    ("VacationResponse/".toList, vacationCapability)]

def validateMethodCapability (method : Text) (capabilities : List Text) : Except JmapError Unit :=
  match methodCapabilities.find? fun (lead, _) => lead.isPrefixOf method with
  | none => .ok ()
  | some (_, required) =>
    if required ∈ capabilities then .ok ()
    else
      .error (.withDetail .unknownMethod
        ("Method '".toList ++ method ++ "' requires capability '".toList ++ required ++
          "' which was not declared in 'using'".toList))

section Batch

variable {σ : Type} (api : JmapApi σ) (capabilities : List Text) (principal : Principal)

def runDispatched (call : MethodCall) : Effect Text σ MethodResponse := do
  let body ← api.runMethod call.method call.arguments principal
  pure { name := call.method, body, id := call.id }

def dispatchMethod (call : MethodCall) : Effect Text σ MethodResponse :=
  if call.method ∈ pushMethods then runDispatched api principal call
  else
    match validateMethodCapability call.method capabilities with
    | .error error => pure (errorResponse error call.id)
    | .ok () =>
      if call.method ∈ dispatchedMethods then runDispatched api principal call
      else
        pure (errorResponse
          (.withDetail .unknownMethod ("Unknown method: ".toList ++ call.method)) call.id)

structure Batch where
  responses : List MethodResponse
  completed : List CompletedCall

def Batch.refuse (batch : Batch) (error : BackRefError) (id : Text) : Batch :=
  { batch with
    responses :=
      batch.responses ++ [errorResponse (.withDetail .invalidArguments error.display) id] }

def Batch.complete (batch : Batch) (call : MethodCall) (response : MethodResponse) : Batch :=
  { responses := batch.responses ++ [response],
    completed := batch.completed ++ [⟨call.id, call.method, response.body⟩] }

def dispatchCall (batch : Batch) (call : MethodCall) (store : σ) : Batch × σ :=
  match dispatchMethod api capabilities principal call store with
  | (.ok response, after) => (batch.complete call response, after)
  | (.error text, after) =>
    (batch.complete call (errorResponse (.withDetail .serverFail text) call.id), after)

def processCall (batch : Batch) (call : MethodCall) (store : σ) : Batch × σ :=
  match resolveBackRefsInCall api.reader batch.completed call with
  | .error error => (batch.refuse error call.id, store)
  | .ok resolved => dispatchCall api capabilities principal batch resolved store

def processCalls : List MethodCall → Batch → σ → Batch × σ
  | [], batch, store => (batch, store)
  | call :: rest, batch, store =>
    let (next, after) := processCall api capabilities principal batch call store
    processCalls rest next after

def CallArguments.isObject : CallArguments → Bool
  | .object _ => true
  | .other _ _ => false

end Batch

end Rusmes
