import FixEngine.Core.Session
import Mathlib.Data.List.ReduceOption

/-!
# The session pool

`SessionPool` (`core/SessionPool.hpp`, `SessionPool.cpp`) keeps the sessions of a manager in a
vector of slots. A removed session leaves its slot empty, and the slot is used again for a later
session. A session id holds the slot and a number of its own; ids are compared by the number.
-/

namespace FixEngine

/-- `SessionID`: the slot of the session and its number, of which only the number is compared. -/
structure SessionID where
  storageIndex : ℕ
  id : ℕ
  deriving DecidableEq, Repr

/-- `operator==`. -/
def SessionID.same (left right : SessionID) : Bool := left.id == right.id

/-- A shared pointer to a session: the pool asks for nothing but the id it was made with. -/
structure PooledSession where
  sessionId : SessionID
  role : Role
  params : SessionParameters
  deriving DecidableEq, Repr

/-- What `vector::at` throws. -/
inductive PoolError
  | outOfRange
  deriving DecidableEq, Repr

/-- `SessionPool`. -/
structure SessionPool where
  sessions : List (Option PooledSession) := []
  freeIndices : List ℕ := []
  /-- `next_idx`, a 64-bit counter. -/
  nextIdx : ℕ := 0
  deriving DecidableEq, Repr

namespace SessionPool

/-- `size()`. -/
def size (pool : SessionPool) : ℕ := pool.sessions.length - pool.freeIndices.length

/-- `generate_session_Id_`. -/
def generateSessionId (pool : SessionPool) : ℕ × SessionPool :=
  (pool.nextIdx, { pool with nextIdx := (pool.nextIdx + 1) % word64 })

/-- `sessions_.at(index)`. -/
def slotAt (pool : SessionPool) (index : ℕ) : Except PoolError (Option PooledSession) :=
  match pool.sessions[index]? with
  | none => .error .outOfRange
  | some slot => .ok slot

/-- `emplace_session`: a free slot is used again, the last one freed first. -/
def emplaceSession (pool : SessionPool) (role : Role) (params : SessionParameters) :
    PooledSession × SessionPool :=
  let (number, numbered) := pool.generateSessionId
  match numbered.freeIndices.getLast? with
  | none =>
      let session : PooledSession := ⟨⟨numbered.sessions.length, number⟩, role, params⟩
      (session, { numbered with sessions := numbered.sessions ++ [some session] })
  | some nxt =>
      let session : PooledSession := ⟨⟨nxt, number⟩, role, params⟩
      (session,
        { numbered with
          sessions := numbered.sessions.set nxt (some session)
          freeIndices := numbered.freeIndices.dropLast })

/-- `remove`, with whether the session was there. -/
def remove (pool : SessionPool) (id : SessionID) : Except PoolError (Bool × SessionPool) :=
  match pool.slotAt id.storageIndex with
  | .error error => .error error
  | .ok none => .ok (false, pool)
  | .ok (some session) =>
      if session.sessionId.same id then
        .ok (true,
          { pool with
            sessions := pool.sessions.set id.storageIndex none
            freeIndices := pool.freeIndices ++ [id.storageIndex] })
      else .ok (false, pool)

/-- `get`. -/
def get (pool : SessionPool) (id : SessionID) : Except PoolError (Option PooledSession) :=
  match pool.slotAt id.storageIndex with
  | .error error => .error error
  | .ok none => .ok none
  | .ok (some session) => .ok (if session.sessionId.same id then some session else none)

/-- The sessions in slot order, but for those whose slot is listed as free. -/
def getAll (pool : SessionPool) : List PooledSession :=
  pool.sessions.reduceOption.filter fun session =>
    !pool.freeIndices.contains session.sessionId.storageIndex

end SessionPool

end FixEngine
