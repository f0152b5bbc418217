import TableScan.Issue
import TableScan.Value.Text
import TableScan.Text.Similar

/-! What can go wrong between a caller and the store: the cause of each failure, its message, and
the report of it. -/

namespace TableScan

inductive Cause where
  | message (text : String)
  | fault (cause : Fault)
  | issues (found : List Issue)
deriving Repr

inductive StateFault where
  | pendingSelection (name pending : String)
  | filteredTwice (name : String)
  | negationFirst
  | comparisonFirst (method : String)
  | notNegatable (method : String)
  | noOperands (method : String)
  | textOperands (kind : String)
  | pendingComparison (pending : String)
  | alreadyExecuted
  | message (text : String)
deriving DecidableEq, Repr

inductive TransportFault where
  | noRegion
  | endpoint (url : String)
  | connectTimeout (url : String)
  | noCredentials
  | partialCredentials (provider credential : String)
  | noProfile (profile : String)
  | unspecified
deriving DecidableEq, Repr

inductive Failure where
  | persistence (message : String)
  | connection (message : String)
  | invalidState (fault : StateFault)
  | encoding (name : String) (cause : Cause)
  | unknownAttribute (name model : String) (available : List String)
  /-- Without a name the row itself is at fault. -/
  | decoding (name : Option String) (cause : Cause)
  | store (message : String) (code : Value)
  /-- The store's own answer to an operation that it refused. -/
  | service (response : Value) (operation : String)
  | transport (fault : TransportFault)
  | invalid (found : List Issue)
  | fault (cause : Fault)
  | badValue (message : String)
  | runtime (message : String)
deriving Repr

namespace Issue

def text (i : Issue) : String :=
  let step : Step → String
    | .name key => key
    | .index n => toString n
  ".".intercalate (i.location.map step) ++ ": " ++ i.kind.code

end Issue

namespace Cause

def text : Cause → String
  | .message text => text
  | .fault reason => reason.message
  | .issues found => "; ".intercalate (found.map Issue.text)

end Cause

namespace StateFault

open Text

def text : StateFault → String
  | .pendingSelection name pending =>
    let first := quotedString name
    let second := quotedString pending
    s!"Invalid scan state; where({first}) cannot follow where({second}) before a comparison"
  | .filteredTwice name =>
    let shown := quotedString name
    s!"Invalid scan state; {shown} can only be filtered once"
  | .negationFirst => "Invalid scan state; not_() must follow scan('attr') or where('attr')"
  | .comparisonFirst method =>
    s!"Invalid scan state; {method}() must follow scan('attr') or where('attr')"
  | .notNegatable method => s!"Invalid scan state: {method}() cannot follow not_()"
  | .noOperands method => s!"Invalid scan state; {method}() requires at least one value"
  | .textOperands kind => s!"Invalid scan state; in_() takes a collection of values, got {kind}"
  | .pendingComparison pending =>
    let shown := quotedString pending
    s!"Invalid scan state; comparison for {shown} is still pending"
  | .alreadyExecuted =>
    "Invalid scan state; scan already executed, start a new scan with start_at() for the next page"
  | .message text => text

end StateFault

namespace TransportFault

def text : TransportFault → String
  | .noRegion => "You must specify a region."
  | .endpoint url => s!"Could not connect to the endpoint URL: \"{url}\""
  | .connectTimeout url => s!"Connect timeout on endpoint URL: \"{url}\""
  | .noCredentials => "Unable to locate credentials"
  | .partialCredentials provider credential =>
    s!"Partial credentials found in {provider}, missing: {credential}"
  | .noProfile profile => s!"The config profile ({profile}) could not be found"
  | .unspecified => "An unspecified error occurred"

end TransportFault

namespace Failure

def unknownText (name model : String) (available : List String) : String :=
  let suggestions := Text.closeNames name available
  s!"unknown attribute on '{model}'." ++
    if suggestions.isEmpty then "" else " Did you mean: " ++ ", ".intercalate suggestions ++ "?"

def serviceError (response : Value) : Value := (response.entryAt? "Error").getD (.map [])

def retryText (response : Value) : String :=
  match response.entryAt? "ResponseMetadata" with
  | none => ""
  | some metadata =>
    let reached := (metadata.entryAt? "MaxAttemptsReached").map Value.isTrue
    match reached, metadata.entryAt? "RetryAttempts" with
    | some true, some attempts => " (reached max retries: " ++ attempts.display ++ ")"
    | _, _ => ""

def serviceText (response : Value) (operation : String) : String :=
  let shown key := (((serviceError response).entryAt? key).map Value.display).getD "Unknown"
  "An error occurred (" ++ shown "Code" ++ ") when calling the " ++ operation ++ " operation" ++
    retryText response ++ ": " ++ shown "Message"

def text : Failure → String
  | .persistence message | .connection message | .store message _ => message
  | .badValue message | .runtime message => message
  | .invalidState reason => reason.text
  | .encoding name cause => s!"Cannot encode value for '{name}': {cause.text}"
  | .unknownAttribute name model available =>
    s!"Cannot encode value for '{name}': " ++ unknownText name model available
  | .decoding none cause => s!"Cannot decode row: {cause.text}"
  | .decoding (some name) cause => s!"Cannot decode attribute '{name}': {cause.text}"
  | .service response operation => serviceText response operation
  | .transport reason => reason.text
  | .invalid found => (Cause.issues found).text
  | .fault reason => reason.message

def texts (names : List String) : Value := .list (names.map .text)

def sortedNames (names : List String) : List String := names.mergeSort fun s t => decide (s ≤ t)

/-- What a caller is told: a code for the kind of failure, the message, and what the failure is
about. Other failures than this library's own have no report. -/
def report? : Failure → Option (List (String × Value))
  | .persistence message =>
    some [("error", .text "DynamoPersistenceError"), ("message", .text message)]
  | .connection message =>
    some [("error", .text "DynamoConnectionError"), ("message", .text message)]
  | .invalidState reason =>
    some [("error", .text "INVALID_SCAN_STATE"), ("message", .text reason.text)]
  | .encoding name cause =>
    some [("error", .text "ENCODING_ERROR"), ("attribute", .text name),
      ("message", .text cause.text)]
  | .unknownAttribute name model available =>
    some [("error", .text "UNKNOWN_ATTRIBUTE"), ("attribute", .text name), ("model", .text model),
      ("suggestions", texts (Text.closeNames name available)),
      ("available_attributes", texts (sortedNames available))]
  | .decoding name cause =>
    some [("error", .text "DECODING_ERROR"), ("attribute", name.elim .null .text),
      ("message", .text cause.text)]
  | .store message code =>
    some [("error", .text "STORE_ERROR"), ("code", code), ("message", .text message)]
  | _ => none

def issues? : Failure → Option (List Issue)
  | .encoding _ (.issues found) | .decoding _ (.issues found) | .invalid found => some found
  | _ => none

def ofRejection : Rejection → Failure
  | .issues found => .invalid found
  | .fault cause => .fault cause

end Failure

end TableScan
