import FixEngine.Session.Reading
import FixEngine.Session.WriteQueue
import FixEngine.Network.Conversation

/-!
# Two sessions on one connection

A `Peer` is a session at one end of a connection that delivers every byte in order. What can happen at
one end is the completion of an outstanding read or write, for any part of the bytes there are, the
end of a wait on a timer, the handler of a wait that has ended, and a message of the application; in
any order, and in any interleaving with what happens at the other end. Nobody stops a session, and no
wait ends that a session gives up after: the Logon and the answers to TestRequests come in time.
-/

namespace FixEngine

/-- The handler of a wait that has ended is taken to be run. -/
def Timer.take {α : Type} (timer : Timer α) (place : ℕ) : Timer α :=
  { timer with expired := timer.expired.eraseIdx place }

namespace Session

/-- An outstanding read is over. -/
def withoutRead (session : Session) (place : ℕ) : Session :=
  { session with pendingReads := session.pendingReads.eraseIdx place }

/-- The timers of a session. -/
inductive TimerName
  | logon
  | inbound
  | heartbeat
  | logout
  deriving DecidableEq, Repr

/-- The time of a wait has come. -/
def expire (session : Session) : TimerName → Session
  | .logon => { session with logonTimer := session.logonTimer.expire }
  | .inbound => { session with inboundTimer := session.inboundTimer.expire }
  | .heartbeat => { session with heartbeatTimer := session.heartbeatTimer.expire }
  | .logout => { session with logoutTimer := session.logoutTimer.expire }

/-- The handlers of waits that have ended. -/
def fireHeartbeat (session : Session) (place : ℕ) : Session :=
  { session with heartbeatTimer := session.heartbeatTimer.take place }.onHeartbeatTimer

/-- The handler of the inbound timer that waits at a place runs. -/
def fireInbound (session : Session) (place : ℕ) : Session :=
  { session with inboundTimer := session.inboundTimer.take place }.onInboundTimer

/-- The handler of the logon timer that waits at a place runs. -/
def fireLogon (session : Session) (place : ℕ) (expectedState : SessionState) : Session :=
  { session with logonTimer := session.logonTimer.take place }.onLogonTimer expectedState

/-- The handler of the logout timer that waits at a place runs. -/
def fireLogout (session : Session) (place : ℕ) : Session :=
  { session with logoutTimer := session.logoutTimer.take place }.onLogoutTimer

end Session

/-- A session, what it has read and processed, and the bytes its connection has taken. -/
structure Peer extends Reading where
  written : Bytes := []

namespace Peer

/-- The peer with another state of its session. -/
def withSession (peer : Peer) (session : Session) : Peer := { peer with session := session }

/-- A read brings data. -/
def read (peer : Peer) (data : Bytes) : Peer :=
  { peer with toReading := peer.toReading.read data }

/-- The message of the application with one field. -/
def customMessage (payload : Bytes) : Message := [⟨9250, payload⟩]

/-- The body of that message, if it is sent now, is one the framer of the peer takes. -/
def Fits (session : Session) (payload : Bytes) : Prop :=
  (fieldsText (session.msgFactory.bodyOf MessageFactory.customType (customMessage payload))).length ≤
    Framer.maxMessageSize

/-- What can happen at one end, where `incoming` is what the connection took from the other. -/
inductive Step (incoming : Bytes) : Peer → Peer → Prop
  | write (peer : Peer) (place conn count : ℕ) (offered : Bytes)
      (outstanding : peer.session.pendingWrites[place]? = some (conn, offered))
      (fits : count ≤ offered.length) :
      Step incoming peer
        { peer.withSession (peer.session.finishWrite place (.ok count)) with
          written := peer.written ++ offered.take count }
  | rewrite (peer : Peer) (place conn : ℕ) (offered : Bytes)
      (outstanding : peer.session.pendingWrites[place]? = some (conn, offered)) :
      Step incoming peer
        (peer.withSession (peer.session.finishWrite place (.error .transient)))
  | read (peer : Peer) (place conn : ℕ) (data : Bytes)
      (outstanding : peer.session.pendingReads[place]? = some conn)
      (arrived : peer.received ++ data <+: incoming) :
      Step incoming peer ((peer.withSession (peer.session.withoutRead place)).read data)
  | reread (peer : Peer) (place conn : ℕ)
      (outstanding : peer.session.pendingReads[place]? = some conn) :
      Step incoming peer
        (peer.withSession ((peer.session.withoutRead place).onRead (.error .transient)))
  | expire (peer : Peer) (timer : Session.TimerName) :
      Step incoming peer (peer.withSession (peer.session.expire timer))
  | heartbeat (peer : Peer) (place : ℕ)
      (expired : peer.session.heartbeatTimer.expired[place]? = some ()) :
      Step incoming peer (peer.withSession (peer.session.fireHeartbeat place))
  | inbound (peer : Peer) (place : ℕ)
      (expired : peer.session.inboundTimer.expired[place]? = some ())
      (answered : peer.session.awaitingTestRequestResponse = false) :
      Step incoming peer (peer.withSession (peer.session.fireInbound place))
  | logon (peer : Peer) (place : ℕ) (expectedState : SessionState)
      (expired : peer.session.logonTimer.expired[place]? = some expectedState)
      (inTime : peer.session.state ≠ expectedState) :
      Step incoming peer (peer.withSession (peer.session.fireLogon place expectedState))
  | logout (peer : Peer) (place : ℕ)
      (expired : peer.session.logoutTimer.expired[place]? = some ()) :
      Step incoming peer (peer.withSession (peer.session.fireLogout place))
  | app (peer : Peer) (payload : Bytes) (active : peer.session.state = .active)
      (nonempty : payload ≠ []) (noDelimiter : soh ∉ payload) (fits : Fits peer.session payload) :
      Step incoming peer
        (peer.withSession (peer.session.sendFromApp (customMessage payload) MessageFactory.customType))

end Peer

/-- The two ends. -/
abbrev Network := Role → Peer

namespace Network

/-- The numbers are not used up: a 64-bit number is printed as a signed one. -/
def Room (net : Network) : Prop := ∀ role, (sentTypes (net role).session.trace).length < 2 ^ 62

/-- A step of one end. -/
inductive Step : Network → Network → Prop
  | mk (net : Network) (role : Role) (after : Peer) (room : net.Room)
      (step : Peer.Step (net role.peer).written (net role) after) :
      Step net (Function.update net role after)

end Network

end FixEngine
