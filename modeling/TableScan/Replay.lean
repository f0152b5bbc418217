import TableScan.Request

/-! A store that gives prepared replies in order and records the requests. When the replies run out
it gives an empty response; a store that is down fails every time. -/

namespace TableScan

abbrev Reply := Except Failure Value

structure Replay (α : Type) where
  replies : List Reply
  down : Option Failure
  /-- The requests so far in the form they are recorded in, latest last. -/
  requests : List α

namespace Replay

variable {α : Type}

def emptyResponse : Value := .map []

def ofReplies (replies : List Reply) : Replay α := ⟨replies, none, []⟩

def take : List Reply → Reply × List Reply
  | [] => (.ok emptyResponse, [])
  | reply :: replies => (reply, replies)

def answer (request : α) (r : Replay α) : Reply × Replay α :=
  let heard := { r with requests := r.requests ++ [request] }
  match r.down with
  | some failure => (.error failure, heard)
  | none => ((take r.replies).1, { heard with replies := (take r.replies).2 })

def send (form : Request → α) (request : Request) (r : Replay α) : Reply × Replay α :=
  r.answer (form request)

end Replay

end TableScan
