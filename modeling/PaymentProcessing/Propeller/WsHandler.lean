import PaymentProcessing.Timer
import PaymentProcessing.Transition
import PaymentProcessing.Propeller.Config

/-! `handle_ws` in time: the loop of one WebSocket connection after its acknowledgement.
Each turn of `select!` takes a branch that is ready and is back when its send has ended. -/
namespace Propeller

/-- `Duration::from_secs` -/
def nanos (secs : UInt64) : Nat := secs.toNat * 1000000000

theorem nanos_pos (h : secs ≠ 0) : 0 < nanos secs := by
  have positive : 0 < secs.toNat := by
    rw [Nat.pos_iff_ne_zero]
    exact fun zero => h (UInt64.toNat_inj.mp zero)
  unfold nanos
  omega

structure TopicEvent where
  topic : String
  event : List UInt8
  deriving DecidableEq, Repr

inductive Frame where
  | connectAck
  | event (event : TopicEvent)
  | ping
  | pong (payload : List UInt8)
  | close (code : UInt16) (reason : String)
  deriving DecidableEq, Repr

/-- What `ws_rx.next()` yields. -/
inductive Incoming where
  | text (text : String)
  | binary (data : List UInt8)
  | ping (payload : List UInt8)
  | pong (payload : List UInt8)
  | close
  | error
  | closed
  deriving DecidableEq, Repr

inductive Branch where
  | incoming (message : Incoming)
  | event (event : Option TopicEvent)
  | tick
  deriving DecidableEq, Repr

structure Turn where
  taken : Nat
  finished : Nat
  /-- The send of the branch succeeded. -/
  sent : Bool
  branch : Branch
  deriving DecidableEq, Repr

inductive Ending where
  | keepaliveTimeout | disconnected | receiveFailed | sendFailed | eventsClosed
  deriving DecidableEq, Repr

structure Session where
  pingInterval : Timer
  lastPongAt : Nat
  /-- When the loop was last back at `select!`. -/
  free : Nat
  frames : List Frame
  ended : Option Ending
  /-- When the pings without a pong so far were sent; nothing reads it. -/
  unanswered : List Nat
  wsPongReceivedTotal : BitVec 64
  wsPingSentTotal : BitVec 64
  wsKeepaliveTimeoutTotal : BitVec 64
  messagesDelivered : BitVec 64
  deriving DecidableEq, Repr

namespace Session

/-- The interval and `last_pong_at` are made at `start`, the acknowledgement is sent at `ready`. -/
def opened (config : KeepaliveConfig) (tolerance start ready : Nat) : Session where
  pingInterval := .start (nanos config.wsPingIntervalSecs) tolerance start
  lastPongAt := start
  free := ready
  frames := [.connectAck]
  ended := none
  unanswered := []
  wsPongReceivedTotal := 0
  wsPingSentTotal := 0
  wsKeepaliveTimeoutTotal := 0
  messagesDelivered := 0

/-- The loop ends; `unsubscribe_client` follows. -/
def leave (s : Session) (ending : Ending) : Session := { s with ended := some ending }

/-- The loop goes on after a send that ended at this time. -/
def back (s : Session) (finished : Nat) (frame : Frame) : Session :=
  { s with free := finished, frames := s.frames ++ [frame] }

def pongReceived (s : Session) (now : Nat) : Session :=
  { s with lastPongAt := now, wsPongReceivedTotal := s.wsPongReceivedTotal + 1 }

def receive (s : Session) (turn : Turn) : Incoming → Session
  | .text _ | .binary _ => { s with free := turn.taken }
  | .pong _ =>
      { s.pongReceived turn.taken with free := turn.taken, unanswered := s.unanswered.tail }
  | .ping payload =>
      if turn.sent then (s.back turn.finished (.pong payload)).pongReceived turn.finished
      else s.leave .sendFailed
  | .close | .closed => s.leave .disconnected
  | .error => s.leave .receiveFailed

def counted (s : Session) : Session := { s with messagesDelivered := s.messagesDelivered + 1 }

def deliver (s : Session) (turn : Turn) : Option TopicEvent → Session
  | some event =>
      if turn.sent then s.counted.back turn.finished (.event event) else s.counted.leave .sendFailed
  | none => s.leave .eventsClosed

/-- A timeout closes, whatever becomes of the close frame. -/
def expire (s : Session) (sent : Bool) : Session :=
  let closing : Frame := .close 1008 "keepalive timeout"
  { s.leave .keepaliveTimeout with
    frames := if sent then s.frames ++ [closing] else s.frames
    wsKeepaliveTimeoutTotal := s.wsKeepaliveTimeoutTotal + 1 }

def pingSent (s : Session) (finished : Nat) : Session :=
  { s.back finished .ping with
    unanswered := s.unanswered ++ [finished]
    wsPingSentTotal := s.wsPingSentTotal + 1 }

def ticked (s : Session) (next : Timer) : Session := { s with pingInterval := next }

/-- The tick of the ping interval. -/
def ping (config : KeepaliveConfig) (s : Session) (turn : Turn) (next : Timer) : Session :=
  if turn.taken - s.lastPongAt > nanos config.wsPongTimeoutSecs then (s.ticked next).expire turn.sent
  else if turn.sent then (s.ticked next).pingSent turn.finished
  else (s.ticked next).leave .sendFailed

def step (config : KeepaliveConfig) (s : Session) (turn : Turn) : Option Session :=
  if s.ended.isSome ∨ turn.taken < s.free ∨ turn.finished < turn.taken then none
  else match turn.branch with
    | .incoming message => some (s.receive turn message)
    | .event event => some (s.deliver turn event)
    | .tick => (s.pingInterval.tick turn.taken).map (s.ping config turn)

end Session
end Propeller
