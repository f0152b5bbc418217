import TableScan.Connection

/-! Callers that ask one connection for its client together. A caller who finds no client begins to
open one and then waits until its context is entered; meanwhile the others take their turns. -/

namespace TableScan

inductive Caller where
  | waiting
  | entering (context : Nat)
  | served (client : Nat)
  | failed (failure : Failure)

structure Crowd where
  connection : Connection
  callers : List Caller

namespace Caller

def ofAnswer : Except Failure Nat → Caller
  | .ok client => .served client
  | .error failure => .failed failure

end Caller

namespace Connection

def turn (c : Connection) : Caller → Caller × Connection
  | .waiting =>
    match c.client with
    | some client => (.served client, c)
    | none =>
      match c.beginClient with
      | (.ok context, after) => (.entering context, after)
      | (.error failure, after) => (.failed failure, after)
  | .entering context =>
    let (answer, after) := c.finishClient context
    (.ofAnswer answer, after)
  | caller => (caller, c)

end Connection

namespace Crowd

def gather (c : Connection) (count : Nat) : Crowd := ⟨c, List.replicate count .waiting⟩

def turn (g : Crowd) (i : Nat) : Crowd :=
  match g.callers[i]? with
  | none => g
  | some caller =>
    let (next, after) := g.connection.turn caller
    ⟨after, g.callers.set i next⟩

def run (g : Crowd) (order : List Nat) : Crowd := order.foldl turn g

end Crowd

end TableScan
