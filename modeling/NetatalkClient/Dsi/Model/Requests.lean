import NetatalkClient.Common.Machine
import NetatalkClient.Dsi.Model.Server
import Mathlib.Logic.Function.Basic
/-!
# DSI: the life of request objects, as a machine

Any number of senders run `afpc_dsi_send_with_reply`, one receiver runs
`afpc_dsi_recv`, and a reconnect may flush the queue. Each section under
`request_queue_mutex` or a request's `waiting_mutex` is one step, and so
is each access between them: a thread holds a bare pointer there, and
others may take steps.

A request object is a number that is never used again, so an access
through a pointer kept too long is an access to a released object and not
to whatever was allocated in its place. `touches` lists the objects a step
reads or writes.
-/

namespace NetatalkClient

open Function

/-- Where a sender stands in `afpc_dsi_send_with_reply`. -/
inductive SenderAt where
  /-- The request is queued, the message not yet written. -/
  | queued
  /-- Written; about to look at `wait`. -/
  | written
  /-- In `pthread_cond_wait` or `pthread_cond_timedwait`. -/
  | waiting
  /-- Done waiting, or not meant to wait; about to read `return_code`. -/
  | answered
  /-- At `out`, before the queue section of the removal. -/
  | leaving
  /-- Not found on the queue; about to look at `ignore_replies`. -/
  | unqueued
  | returned
  deriving DecidableEq, Repr

/-- Where the receiver stands in `afpc_dsi_recv`, and the request it has a
pointer to. -/
inductive ReceiverAt where
  | idle
  /-- Found in the queue; about to compare generations. -/
  | found (r : ℕ)
  /-- Of this connection; about to store the return code. -/
  | matched (r : ℕ)
  /-- About to read the payload and run the handler. -/
  | stored (r : ℕ)
  /-- At `out`, about to look at `wait`. -/
  | handled (r : ℕ)
  /-- Somebody waits; about to signal. -/
  | waking (r : ℕ)
  /-- Nobody waits; about to enter the queue section of the removal. -/
  | removing (r : ℕ)
  /-- Not found on the queue; about to look at `ignore_replies`. -/
  | unqueued (r : ℕ)
  deriving DecidableEq, Repr

/-- The request the receiver has a pointer to. -/
def ReceiverAt.holds : ReceiverAt → Option ℕ
  | .idle => none
  | .found r | .matched r | .stored r | .handled r | .waking r | .removing r | .unqueued r => some r

/-- All request objects ever made, `made` of them, with how often each was
released; the queue; and where everyone stands. -/
structure Requests where
  made : ℕ
  object : ℕ → DsiRequest
  released : ℕ → ℕ
  queue : List ℕ
  sender : ℕ → SenderAt
  receiver : ReceiverAt
  connectionGeneration : ℕ

/-- What can happen next. Events of a sender name its request. -/
inductive RequestEvent where
  /-- A sender queues a new request. -/
  | send (requestid subcommand : ℕ) (wait : ℤ)
  | write (r : ℕ)
  | writeError (r : ℕ)
  | testWait (r : ℕ)
  /-- The wait ends because `done_waiting` is set. -/
  | wake (r : ℕ)
  /-- The wait ends by a timeout or an error. -/
  | giveUp (r : ℕ)
  | readReturnCode (r : ℕ)
  | remove (r : ℕ)
  | testIgnored (r : ℕ)
  /-- The receiver has a header with this request id. -/
  | findRequest (requestid : ℕ)
  | compareGeneration
  | storeReturnCode (code : ℤ)
  /-- The call ends before the packet is complete, or with an error. -/
  | returnEarly
  /-- The handler has run, with this result. -/
  | handle (result : ℤ)
  | testAnswered
  | signal
  | removeAnswered
  | testAnsweredIgnored
  /-- `afpc_dsi_flush_request_queue`. -/
  | flush
  /-- `afpc_dsi_fail_request_queue`. -/
  | fail (error : ℤ)
  | nextConnection
  deriving DecidableEq, Repr

namespace Requests

/-- No request yet. -/
def init : Requests where
  made := 0
  object := fun r => { DsiRequest.waiting r 0 0 with wait := 0 }
  released := fun _ => 0
  queue := []
  sender := fun _ => .queued
  receiver := .idle
  connectionGeneration := 0

/-- The request `afpc_dsi_send_with_reply` fills in. -/
def newObject (s : Requests) (requestid subcommand : ℕ) (wait : ℤ) : DsiRequest :=
  { addr := s.made, requestid, subcommand, other := none, wait, doneWaiting := false
    ignoreReplies := false, waitingCond := 0, returnCode := 0
    connectionGeneration := s.connectionGeneration, replyHandler := none, streamBuffer := none }

def setSender (s : Requests) (r : ℕ) (pos : SenderAt) : Requests :=
  { s with sender := update s.sender r pos }

def setReceiver (s : Requests) (pos : ReceiverAt) : Requests := { s with receiver := pos }

/-- A store through the pointer to `r`. -/
def setObject (s : Requests) (r : ℕ) (f : DsiRequest → DsiRequest) : Requests :=
  { s with object := update s.object r (f (s.object r)) }

def release (s : Requests) (r : ℕ) : Requests :=
  { s with released := update s.released r (s.released r + 1) }

/-- The queue section of `afpc_dsi_remove_from_request_queue` where it finds
the request: unlink, wake, free. -/
def unlink (s : Requests) (r : ℕ) : Requests :=
  ({ s with queue := s.queue.erase r }.setObject r DsiRequest.signal).release r

/-- A store into every queued request, under the queue mutex. -/
def setQueued (s : Requests) (f : DsiRequest → DsiRequest) : Requests :=
  { s with object := fun r => if r ∈ s.queue then f (s.object r) else s.object r }

/-- `afpc_dsi_find_request` on the queue. -/
def find (s : Requests) (requestid : ℕ) : Option ℕ :=
  s.queue.find? fun r => !(s.object r).ignoreReplies && requestid == (s.object r).requestid

/-- A sender's step from `before`. -/
def senderStep (s : Requests) (r : ℕ) (before : SenderAt) (next : Requests) : Option Requests :=
  if r < s.made ∧ s.sender r = before then some next else none

/-- One step; `none` if the event is not possible in `s`. -/
def step (s : Requests) : RequestEvent → Option Requests
  | .send requestid subcommand wait =>
      some { s with
        made := s.made + 1
        object := update s.object s.made (s.newObject requestid subcommand wait)
        released := update s.released s.made 0
        queue := s.queue ++ [s.made]
        sender := update s.sender s.made .queued }
  | .write r => s.senderStep r .queued (s.setSender r .written)
  | .writeError r =>
      s.senderStep r .queued
        ((s.setObject r fun p => { p with returnCode := -eio }).setSender r .leaving)
  | .testWait r =>
      s.senderStep r .written
        (s.setSender r (if (s.object r).wait = 0 then .answered else .waiting))
  | .wake r =>
      if (s.object r).doneWaiting then s.senderStep r .waiting (s.setSender r .answered) else none
  | .giveUp r => s.senderStep r .waiting (s.setSender r .leaving)
  | .readReturnCode r => s.senderStep r .answered (s.setSender r .leaving)
  | .remove r =>
      s.senderStep r .leaving
        (if r ∈ s.queue then (s.unlink r).setSender r .returned else s.setSender r .unqueued)
  | .testIgnored r =>
      s.senderStep r .unqueued
        (if (s.object r).ignoreReplies then (s.release r).setSender r .returned
          else s.setSender r .returned)
  | .findRequest requestid =>
      match s.receiver, s.find requestid with
      | .idle, some r => some (s.setReceiver (.found r))
      | .idle, none => some s
      | _, _ => none
  | .compareGeneration =>
      match s.receiver with
      | .found r =>
          some (s.setReceiver
            (if (s.object r).connectionGeneration = s.connectionGeneration then .matched r
              else .idle))
      | _ => none
  | .storeReturnCode code =>
      match s.receiver with
      | .matched r =>
          some ((s.setObject r fun p => { p with returnCode := code }).setReceiver (.stored r))
      | _ => none
  | .returnEarly =>
      match s.receiver with
      | .stored _ => some (s.setReceiver .idle)
      | _ => none
  | .handle result =>
      match s.receiver with
      | .stored r =>
          some ((s.setObject r fun p =>
            if result ≠ 0 ∧ p.returnCode = 0 then { p with returnCode := result }
            else p).setReceiver
              (.handled r))
      | _ => none
  | .testAnswered =>
      match s.receiver with
      | .handled r =>
          some (s.setReceiver (if (s.object r).wait ≠ 0 then .waking r else .removing r))
      | _ => none
  | .signal =>
      match s.receiver with
      | .waking r =>
          some ((s.setObject r fun p => { p with wait := 0 }.signal).setReceiver .idle)
      | _ => none
  | .removeAnswered =>
      match s.receiver with
      | .removing r =>
          some (if r ∈ s.queue then (s.unlink r).setReceiver .idle
            else s.setReceiver (.unqueued r))
      | _ => none
  | .testAnsweredIgnored =>
      match s.receiver with
      | .unqueued r =>
          some (if (s.object r).ignoreReplies then (s.release r).setReceiver .idle
            else s.setReceiver .idle)
      | _ => none
  | .flush =>
      some { s with
        queue := []
        object := (s.setQueued fun p =>
          { p with ignoreReplies := true, returnCode := -eio }.signal).object }
  | .fail error => some (s.setQueued fun p => { p with returnCode := error }.signal)
  | .nextConnection => some { s with connectionGeneration := s.connectionGeneration + 1 }

/-- The request objects a step reads or writes. A queue section walks the
queue, so it touches all of it. -/
def touches (s : Requests) : RequestEvent → List ℕ
  | .send .. | .findRequest _ | .flush | .fail _ => s.queue
  | .write _ | .returnEarly | .nextConnection => []
  | .writeError r | .testWait r | .wake r | .giveUp r | .readReturnCode r | .testIgnored r => [r]
  | .remove _ | .removeAnswered => s.queue
  | .compareGeneration | .storeReturnCode _ | .handle _ | .testAnswered | .signal
  | .testAnsweredIgnored => s.receiver.holds.toList

end Requests

end NetatalkClient
