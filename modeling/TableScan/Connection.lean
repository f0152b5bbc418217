import TableScan.Scan
import TableScan.Replay

/-! A shared connection to the store. A client is opened within a context: creating the context and
entering it are two steps, either of which may fail, and the context is left when the connection is
closed. -/

namespace TableScan

structure Settings where
  region : String
  endpoint : Option String
  options : List (Value × Value)
deriving Repr

/-- What is done through a session. Contexts and clients are numbered from one. -/
inductive Event where
  | create (context : Option Nat)
  | enter (context : Nat) (client : Option Nat)
  | exit (context : Nat) (left : Bool)
  | scan (client : Nat) (request : Value)
  | listTables (client : Nat)
deriving Repr

/-- The prepared outcomes of each kind of step; when they run out the steps succeed. -/
structure Script where
  create : List Reply
  enter : List Reply
  exit : List Reply
  scan : List Reply
  listTables : List Reply

structure Session where
  script : Script
  contexts : Nat
  clients : Nat
  events : List Event

structure Connection where
  settings : Settings
  context : Option Nat
  client : Option Nat
  session : Session

namespace Settings

def defaultRegion : String := "us-east-1"

def toValue (s : Settings) : Value :=
  let endpoint := s.endpoint.elim [] fun url => [(.text "endpoint_url", .text url)]
  .map (Value.ofEntries (s.options ++ endpoint ++ [(.text "region_name", .text s.region)]))

end Settings

namespace Session

def ofScript (script : Script) : Session := ⟨script, 0, 0, []⟩

def record (e : Event) (s : Session) : Session := { s with events := s.events ++ [e] }

def create (s : Session) : Except Failure Nat × Session :=
  let (reply, rest) := Replay.take s.script.create
  let next := { s with script := { s.script with create := rest } }
  match reply with
  | .error failure => (.error failure, next.record (.create none))
  | .ok _ =>
    let context := s.contexts + 1
    (.ok context, { next with contexts := context }.record (.create (some context)))

def enter (context : Nat) (s : Session) : Except Failure Nat × Session :=
  let (reply, rest) := Replay.take s.script.enter
  let next := { s with script := { s.script with enter := rest } }
  match reply with
  | .error failure => (.error failure, next.record (.enter context none))
  | .ok _ =>
    let client := s.clients + 1
    (.ok client, { next with clients := client }.record (.enter context (some client)))

def exit (context : Nat) (s : Session) : Except Failure Unit × Session :=
  let (reply, rest) := Replay.take s.script.exit
  let next := { s with script := { s.script with exit := rest } }
  match reply with
  | .error failure => (.error failure, next.record (.exit context false))
  | .ok _ => (.ok (), next.record (.exit context true))

def scan (client : Nat) (request : Value) (s : Session) : Reply × Session :=
  let (reply, rest) := Replay.take s.script.scan
  (reply, { s with script := { s.script with scan := rest } }.record (.scan client request))

def listTables (client : Nat) (s : Session) : Except Failure Unit × Session :=
  let (reply, rest) := Replay.take s.script.listTables
  let next := { s with script := { s.script with listTables := rest } }
  (reply.map fun _ => (), next.record (.listTables client))

end Session

namespace Connection

def ofSession (settings : Settings) (session : Session) : Connection :=
  ⟨settings, none, none, session⟩

def isStoreFailure : Failure → Bool
  | .service _ _ | .transport _ => true
  | _ => false

/-- A client could not be opened. A failure of the store is reported as one of the connection, which
forgets its context; any other failure is passed on and changes nothing. -/
def openingFailed (failure : Failure) (c : Connection) : Failure × Connection :=
  if isStoreFailure failure then (.connection failure.text, { c with context := none })
  else (failure, c)

/-- The first step towards a client: a new context, which takes the place of any other. -/
def beginClient (c : Connection) : Except Failure Nat × Connection :=
  match c.session.create with
  | (.ok context, session) => (.ok context, { c with session := session, context := some context })
  | (.error failure, session) =>
    let (reported, after) := openingFailed failure { c with session := session }
    (.error reported, after)

def finishClient (context : Nat) (c : Connection) : Except Failure Nat × Connection :=
  match c.session.enter context with
  | (.ok client, session) => (.ok client, { c with session := session, client := some client })
  | (.error failure, session) =>
    let (reported, after) := openingFailed failure { c with session := session }
    (.error reported, after)

def getClient (c : Connection) : Except Failure Nat × Connection :=
  match c.client with
  | some client => (.ok client, c)
  | none =>
    match c.beginClient with
    | (.ok context, after) => after.finishClient context
    | (.error failure, after) => (.error failure, after)

/-- Leaves the context, if there is one. A context that cannot be left stays. -/
def close (c : Connection) : Except Failure Unit × Connection :=
  match c.context with
  | none => (.ok (), c)
  | some context =>
    match c.session.exit context with
    | (.ok _, session) => (.ok (), { c with session := session, context := none, client := none })
    | (.error failure, session) => (.error failure, { c with session := session })

def isHealthy (c : Connection) : Bool × Connection :=
  match c.getClient with
  | (.error _, after) => (false, after)
  | (.ok client, after) =>
    match after.session.listTables client with
    | (.ok _, session) => (true, { after with session := session })
    | (.error _, session) => (false, { after with session := session })

/-- A failure of the store as a failure to scan: the service's own message and code, or the text of
the failure. -/
def scanFailure : Failure → Failure
  | .service response operation =>
    let error := Failure.serviceError response
    let message := match error.entryAt? "Message" with
      | some shown => if shown.isTrue then shown.display else Failure.serviceText response operation
      | none => Failure.serviceText response operation
    .store message ((error.entryAt? "Code").getD .null)
  | .transport reason => .store reason.text .null
  | failure => failure

def scan (request : Value) (c : Connection) : Reply × Connection :=
  match c.getClient with
  | (.error failure, after) => (.error failure, after)
  | (.ok client, after) =>
    match after.session.scan client request with
    | (.ok response, session) => (.ok response, { after with session := session })
    | (.error failure, session) => (.error (scanFailure failure), { after with session := session })

def send (request : Request) (c : Connection) : Reply × Connection := c.scan request.toValue

inductive Step where
  | getClient
  | close
  | healthCheck
  | scan (request : Value)
  | execute (s : Scan)

inductive Answer where
  | client (number : Nat)
  | closed
  | healthy (answers : Bool)
  | response (r : Value)
  | page (p : Page)

def step (c : Connection) : Step → Except Failure Answer × Connection
  | .getClient =>
    let (client, after) := c.getClient
    (client.map .client, after)
  | .close =>
    let (closed, after) := c.close
    (closed.map fun _ => .closed, after)
  | .healthCheck =>
    let (answers, after) := c.isHealthy
    (.ok (.healthy answers), after)
  | .scan request =>
    let (response, after) := c.scan request
    (response.map .response, after)
  | .execute s =>
    let (page, _, after) := s.execute send c
    (page.map .page, after)

def run (c : Connection) (steps : List Step) : Connection :=
  steps.foldl (fun c s => (c.step s).2) c

end Connection

end TableScan
