import Mathlib.Algebra.Order.Group.Nat
import Zicade.Foundation.Retain
import Zicade.Foundation.Runs
import Zicade.Foundation.Text

/-! # The pool of idle sockets

Sockets to one upstream that have never carried a request. Three operations act on
the queue under one lock, each looking at the clock and at the sockets entry by
entry, while time passes and the upstream closes or writes when it likes.
-/

namespace Zicade.Upstream

open Zicade.Foundation

/-- How many sockets to keep ready and for how long. -/
structure PoolConfig where
  minIdle : Nat
  idleTimeout : Nat
  deriving DecidableEq, Repr

/-- What the upstream has done with a socket that nothing was sent on. -/
inductive Peer
  | silent
  | wrote
  | closed
  deriving DecidableEq, Repr

/-- A socket, with the address it was dialed to. -/
structure Stream where
  addr : Text
  peer : Peer := .silent
  deriving DecidableEq, Repr

/-- A parked socket, by its number, and when it was parked. -/
structure Idle where
  stream : Nat
  since : Nat
  deriving DecidableEq, Repr

/-- What the prewarm task should do next. -/
inductive Refresh
  | full (nextExpiry : Nat)
  | short (closedByPeer : Nat)
  deriving DecidableEq, Repr

/-- The check of an entry: when its age was read, and what a read of the socket
found if it was young enough to be read from. -/
structure Checked where
  entry : Idle
  time : Nat
  found : Option Peer
  deriving DecidableEq, Repr

/-- An operation that holds the lock, with the queue as it found it and what it has
looked at so far. -/
inductive Critical
  | taking (before : List Idle) (discarded : List Checked)
  | aging (before : List Idle) (discarded : List Checked) (entry : Idle)
  | probing (before : List Idle) (discarded : List Checked) (entry : Idle) (time : Nat)
  | expiring (before : List Idle) (aged : List (Idle × Nat)) (todo : List Idle)
  | sifting (before : List Idle) (expired : Nat) (aged : List (Idle × Nat))
      (probed : List (Idle × Peer)) (todo : List Idle)
  | measuring (before : List Idle) (aged : List (Idle × Nat)) (probed : List (Idle × Peer))
  | putting (stream : Nat)
  | parking (entry : Idle)
  deriving DecidableEq, Repr

/-- An operation that is over. -/
inductive Outcome
  | took (before after : List Idle) (discarded : List Checked) (got : Option Checked)
  | refreshed (before after : List Idle) (aged : List (Idle × Nat))
      (probed : List (Idle × Peer)) (time : Nat) (result : Refresh)
  | put (parked : Option Idle)
  deriving DecidableEq, Repr

/-- The streams are all sockets ever dialed; `dialed` are those that nobody has
parked yet. The last two fields are history: the sockets handed out, and the
operations that are over. -/
structure Pool where
  addr : Text
  config : PoolConfig
  streams : List Stream := []
  dialed : List Nat := []
  idle : List Idle := []
  critical : Option Critical := none
  now : Nat := 0
  handed : List Nat := []
  outcomes : List Outcome := []
  deriving DecidableEq, Repr

/-- Younger than the timeout at this time. -/
def PoolConfig.young (config : PoolConfig) (entry : Idle) (time : Nat) : Bool :=
  time - entry.since < config.idleTimeout

/-- What `retain` keeps of the entries whose age was read. -/
def PoolConfig.kept (config : PoolConfig) (aged : List (Idle × Nat)) : List Idle :=
  retained config.young aged

/-- What `retain` keeps of the entries that were read from. -/
def stillOpen (probed : List (Idle × Peer)) : List Idle :=
  retained (fun _ peer => peer = .silent) probed

inductive PoolEvent
  | tick (elapsed : Nat)
  | act (stream : Nat) (peer : Peer)
  | dial (addr : Text)
  | lockTake
  | lockRefresh
  | lockPut (stream : Nat)
  | advance
  deriving DecidableEq, Repr

namespace Pool

/-- `is_idle_and_open` finds nothing to read on a socket that is silent. -/
def peerOf (pool : Pool) (entry : Idle) : Peer :=
  (pool.streams[entry.stream]?.map (·.peer)).getD .closed

/-- When the oldest socket expires, from now. -/
def nextExpiry (pool : Pool) : Nat :=
  match (pool.idle.map (·.since)).min? with
  | none => pool.config.idleTimeout
  | some since => pool.config.idleTimeout - (pool.now - since)

def enter (pool : Pool) (critical : Critical) : Pool := { pool with critical := some critical }

def leave (pool : Pool) : Pool := { pool with critical := none }

/-- `take_idle`: pop the newest entry until one is usable. -/
def advanceTake (pool : Pool) (before : List Idle) (discarded : List Checked) :
    Pool × Option Outcome :=
  match pool.idle.getLast? with
  | none => (pool.leave, some (.took before [] discarded none))
  | some entry =>
      ({ pool with idle := pool.idle.dropLast }.enter (.aging before discarded entry), none)

def advanceAge (pool : Pool) (before : List Idle) (discarded : List Checked) (entry : Idle) :
    Pool :=
  if pool.config.young entry pool.now then pool.enter (.probing before discarded entry pool.now)
  else pool.enter (.taking before (discarded ++ [⟨entry, pool.now, none⟩]))

def advanceProbe (pool : Pool) (before : List Idle) (discarded : List Checked) (entry : Idle)
    (time : Nat) : Pool × Option Outcome :=
  if pool.peerOf entry = .silent then
    ({ pool with handed := pool.handed ++ [entry.stream] }.leave,
      some (.took before pool.idle discarded (some ⟨entry, time, some .silent⟩)))
  else
    (pool.enter (.taking before (discarded ++ [⟨entry, time, some (pool.peerOf entry)⟩])), none)

/-- The first `retain` of `refresh`, one entry at a time. -/
def advanceExpire (pool : Pool) (before : List Idle) (aged : List (Idle × Nat)) :
    List Idle → Pool
  | [] =>
      let expired := before.length - pool.idle.length
      pool.enter (.sifting before expired aged [] pool.idle)
  | entry :: rest =>
      let aged := aged ++ [(entry, pool.now)]
      { pool with idle := pool.config.kept aged ++ rest }.enter (.expiring before aged rest)

/-- The second `retain`, and then whether the queue is short. -/
def advanceSift (pool : Pool) (before : List Idle) (expired : Nat) (aged : List (Idle × Nat))
    (probed : List (Idle × Peer)) : List Idle → Pool × Option Outcome
  | [] =>
      let closedByPeer := before.length - expired - pool.idle.length
      if pool.idle.length < pool.config.minIdle then
        (pool.leave,
          some (.refreshed before pool.idle aged probed pool.now (.short closedByPeer)))
      else (pool.enter (.measuring before aged probed), none)
  | entry :: rest =>
      let probed := probed ++ [(entry, pool.peerOf entry)]
      ({ pool with idle := stillOpen probed ++ rest }.enter
        (.sifting before expired aged probed rest), none)

/-- `put`: a socket beyond the watermark is closed. -/
def advancePut (pool : Pool) (stream : Nat) : Pool × Option Outcome :=
  if pool.idle.length < pool.config.minIdle then
    (pool.enter (.parking ⟨stream, pool.now⟩), none)
  else (pool.leave, some (.put none))

/-- The next step of the operation that holds the lock, and its outcome if that was
the last. -/
def advance (pool : Pool) : Critical → Pool × Option Outcome
  | .taking before discarded => pool.advanceTake before discarded
  | .aging before discarded entry => (pool.advanceAge before discarded entry, none)
  | .probing before discarded entry time => pool.advanceProbe before discarded entry time
  | .expiring before aged todo => (pool.advanceExpire before aged todo, none)
  | .sifting before expired aged probed todo => pool.advanceSift before expired aged probed todo
  | .measuring before aged probed =>
      (pool.leave,
        some (.refreshed before pool.idle aged probed pool.now (.full pool.nextExpiry)))
  | .putting stream => pool.advancePut stream
  | .parking entry =>
      ({ pool with idle := pool.idle ++ [entry] }.leave, some (.put (some entry)))

/-- A socket the upstream has closed or written to does not fall silent again. -/
def act (pool : Pool) (i : Nat) (peer : Peer) : Option Pool :=
  match pool.streams[i]?, peer with
  | none, _ | _, .silent => none
  | some stream, peer => some { pool with streams := pool.streams.set i { stream with peer } }

def record (pool : Pool) (outcome : Option Outcome) : Pool :=
  { pool with outcomes := pool.outcomes ++ outcome.toList }

/-- One operation holds the lock at a time, and parks only a socket just dialed. -/
def step (pool : Pool) : PoolEvent → Option Pool
  | .tick elapsed => some { pool with now := pool.now + elapsed }
  | .act i peer => pool.act i peer
  | .dial addr =>
      some { pool with
        streams := pool.streams ++ [{ addr }], dialed := pool.dialed ++ [pool.streams.length] }
  | .lockTake =>
      match pool.critical with
      | none => some (pool.enter (.taking pool.idle []))
      | some _ => none
  | .lockRefresh =>
      match pool.critical with
      | none => some (pool.enter (.expiring pool.idle [] pool.idle))
      | some _ => none
  | .lockPut stream =>
      match pool.critical with
      | none =>
          if stream ∈ pool.dialed then
            some ({ pool with dialed := pool.dialed.erase stream }.enter (.putting stream))
          else none
      | some _ => none
  | .advance =>
      pool.critical.map fun critical =>
        (pool.advance critical).1.record (pool.advance critical).2

end Pool

end Zicade.Upstream
