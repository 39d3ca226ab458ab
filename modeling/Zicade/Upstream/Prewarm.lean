import Zicade.Foundation.Notify
import Zicade.Upstream.Pool

/-! # A pool and the task that keeps it topped up

Any number of CONNECTs take from the pool: the first starts the prewarm task, and each
pops under the lock and wakes the task after it. The task refreshes, waits, backs off
and dials on its own. All of it interleaves.
-/

namespace Zicade.Upstream

open Zicade.Foundation

/-- Longest a full pool goes without checking its sockets. -/
def RECHECK : Nat := 5 * 1000000000

/-- Delay between failed dials. -/
structure Backoff where
  next : Nat
  deriving DecidableEq, Repr

namespace Backoff

def FIRST : Nat := 500 * 1000000

def MAX : Nat := 30 * 1000000000

/-- The delay before the next attempt; doubles each call up to `MAX`. -/
def nextDelay (backoff : Backoff) : Nat × Backoff :=
  (backoff.next, ⟨min (backoff.next * 2) MAX⟩)

def reset (_ : Backoff) : Backoff := ⟨FIRST⟩

instance : Inhabited Backoff := ⟨⟨FIRST⟩⟩

end Backoff

/-- Where the prewarm task is. A wait is over no earlier than its deadline. -/
inductive Phase
  | top
  | refreshing
  | full (nextExpiry : Nat)
  | waiting (deadline : Nat)
  | discouraged (thenDial : Bool)
  | sleeping (started delay : Nat) (thenDial : Bool)
  | short
  | dialing
  | connected (stream : Nat)
  | putting
  | stopped
  deriving DecidableEq, Repr

/-- A prewarm task, with the address that it dials. -/
structure Task where
  addr : Text
  backoff : Backoff := default
  phase : Phase := .top
  deriving DecidableEq, Repr

/-- Where a `take` is: it may have a runtime to start the task on. -/
inductive Take
  | calling (runtime : Bool)
  | joining
  | spawning
  | storing (task : Nat)
  | ready
  | popping
  | popped (got : Option Checked)
  | returned (got : Option Checked)
  deriving DecidableEq, Repr

def Take.isReturned : Take → Bool
  | .returned _ => true
  | _ => false

/-- The `OnceLock` that holds the task. -/
inductive Once
  | empty
  | initializing
  | set (task : Nat)
  deriving DecidableEq, Repr

/-- Who holds the lock of the queue. -/
inductive Holder
  | take (i : Nat)
  | task (j : Nat)
  deriving DecidableEq, Repr

/-- What has happened: a socket was found closed or written to, a refresh found the
pool full, a backoff wait is over, a dial has begun, or it has failed. -/
inductive Sign
  | closed (stream : Nat)
  | full
  | waited (delay lasted : Nat)
  | dial
  | dialFailed
  deriving DecidableEq, Repr

/-- Whether the pool is dropped, and everything in it and around it. The signs are
history. -/
structure UpstreamPool (ν : Type*) where
  pool : Pool
  wake : ν
  prewarm : Once := .empty
  holder : Option Holder := none
  tasks : List Task := []
  takes : List Take := []
  dropped : Bool := false
  signs : List Sign := []
  deriving DecidableEq, Repr

inductive PrewarmEvent
  | tick (elapsed : Nat)
  | act (stream : Nat) (peer : Peer)
  | call (runtime : Bool)
  | take (i : Nat)
  | advance
  | task (j : Nat)
  | elapse (j : Nat)
  | connect (j : Nat)
  | fail (j : Nat)
  | drop
  | abort (j : Nat)
  deriving DecidableEq, Repr

/-- The socket that the operation finds closed or written to in its next step. -/
def Pool.finds (pool : Pool) : Critical → List Sign
  | .aging _ _ entry =>
      if pool.config.young entry pool.now ∨ pool.peerOf entry = .silent then []
      else [.closed entry.stream]
  | .probing _ _ entry _ => if pool.peerOf entry = .silent then [] else [.closed entry.stream]
  | .expiring _ _ (entry :: _) =>
      if pool.config.young entry pool.now ∨ pool.peerOf entry = .silent then []
      else [.closed entry.stream]
  | .sifting _ _ _ _ (entry :: _) =>
      if pool.peerOf entry = .silent then [] else [.closed entry.stream]
  | _ => []

namespace UpstreamPool

variable {ν : Type*} [Notify ν]

def new (addr : Text) (config : PoolConfig) : UpstreamPool ν where
  pool := { addr, config }
  wake := Notify.new

def setTake (up : UpstreamPool ν) (i : Nat) (take : Take) : UpstreamPool ν :=
  { up with takes := up.takes.set i take }

def setTask (up : UpstreamPool ν) (j : Nat) (task : Task) : UpstreamPool ν :=
  { up with tasks := up.tasks.set j task }

def setWake (up : UpstreamPool ν) (wake : ν) : UpstreamPool ν := { up with wake }

def setPrewarm (up : UpstreamPool ν) (prewarm : Once) : UpstreamPool ν := { up with prewarm }

def setHolder (up : UpstreamPool ν) (holder : Option Holder) : UpstreamPool ν :=
  { up with holder }

def sign (up : UpstreamPool ν) (sign : Sign) : UpstreamPool ν :=
  { up with signs := up.signs ++ [sign] }

/-- `runtime.spawn`: the task gets the address of the pool. -/
def spawn (up : UpstreamPool ν) : UpstreamPool ν :=
  { up with tasks := up.tasks ++ [{ addr := up.pool.addr }] }

/-- An operation on the queue, with its holder and its part in the schedule. -/
def onPool (up : UpstreamPool ν) (event : PoolEvent) (holder : Option Holder) :
    Option (UpstreamPool ν) :=
  (up.pool.step event).map fun pool => { up with pool, holder }

/-- The next step of `take` outside the lock: `start_prewarm`, `take_idle`,
`notify_one`. -/
def stepTake (up : UpstreamPool ν) (i : Nat) : Take → Option (UpstreamPool ν)
  | .calling runtime =>
      match up.prewarm, runtime with
      | .set _, _ | _, false => some (up.setTake i .ready)
      | _, true => some (up.setTake i .joining)
  | .joining =>
      match up.prewarm with
      | .empty => some ((up.setPrewarm .initializing).setTake i .spawning)
      -- `get_or_init` blocks while another call initializes
      | .initializing => none
      | .set _ => some (up.setTake i .ready)
  | .spawning => some (up.spawn.setTake i (.storing up.tasks.length))
  | .storing task => some ((up.setPrewarm (.set task)).setTake i .ready)
  | .ready => (up.onPool .lockTake (some (.take i))).map (·.setTake i .popping)
  | .popped got => some ((up.setWake (Notify.notifyOne up.wake)).setTake i (.returned got))
  | .popping | .returned _ => none

/-- The next step of `prewarm::run` outside the lock that waits for nothing. -/
def stepTask (up : UpstreamPool ν) (j : Nat) (task : Task) : Option (UpstreamPool ν) :=
  match task.phase with
  | .top =>
      if up.dropped then some (up.setTask j { task with phase := .stopped })
      else
        (up.onPool .lockRefresh (some (.task j))).map
          (·.setTask j { task with phase := .refreshing })
  | .full nextExpiry =>
      let phase := match (Notify.poll up.wake j).1 with
        | true => .top
        | false => .waiting (up.pool.now + min nextExpiry RECHECK)
      some ((up.setWake (Notify.poll up.wake j).2).setTask j { task with phase })
  | .waiting deadline =>
      let phase := match (Notify.poll up.wake j).1 with
        | true => .top
        | false => .waiting deadline
      some ((up.setWake (Notify.poll up.wake j).2).setTask j { task with phase })
  | .discouraged thenDial =>
      let (delay, backoff) := task.backoff.nextDelay
      some (up.setTask j { task with backoff, phase := .sleeping up.pool.now delay thenDial })
  | .short => some ((up.sign .dial).setTask j { task with phase := .dialing })
  | .connected stream =>
      if up.dropped then some (up.setTask j { task with phase := .stopped })
      else
        (up.onPool (.lockPut stream) (some (.task j))).map
          (·.setTask j { task with phase := .putting })
  | .refreshing | .sleeping .. | .dialing | .putting | .stopped => none

/-- A timer of the task has gone off. -/
def elapse (up : UpstreamPool ν) (j : Nat) (task : Task) : Option (UpstreamPool ν) :=
  match task.phase with
  | .waiting deadline =>
      if deadline ≤ up.pool.now then
        some ((up.setWake (Notify.cancel up.wake j)).setTask j { task with phase := .top })
      else none
  | .sleeping started delay thenDial =>
      if started + delay ≤ up.pool.now then
        some ((up.sign (.waited delay (up.pool.now - started))).setTask j
          { task with phase := if thenDial then .short else .top })
      else none
  | _ => none

/-- The dial of the task has come to an end: a socket, or an error or a timeout. -/
def dialed (up : UpstreamPool ν) (j : Nat) (task : Task) (ok : Bool) : Option (UpstreamPool ν) :=
  match task.phase, ok with
  | .dialing, true =>
      (up.onPool (.dial task.addr) up.holder).map
        (·.setTask j { task with phase := .connected up.pool.streams.length })
  | .dialing, false =>
      some ((up.sign .dialFailed).setTask j { task with phase := .discouraged false })
  | _, _ => none

/-- `abort` takes effect where the task waits. -/
def abort (up : UpstreamPool ν) (j : Nat) (task : Task) : Option (UpstreamPool ν) :=
  if up.dropped then
    match task.phase with
    | .waiting _ =>
        some ((up.setWake (Notify.cancel up.wake j)).setTask j { task with phase := .stopped })
    | .sleeping .. | .dialing => some (up.setTask j { task with phase := .stopped })
    | _ => none
  else none

/-- The holder of the lock hears what its operation came to. -/
def deliver (up : UpstreamPool ν) : Holder → Outcome → UpstreamPool ν
  | .take i, .took _ _ _ got => up.setTake i (.popped got)
  | .task j, .refreshed _ _ _ _ _ result =>
      match up.tasks[j]? with
      | none => up
      | some task =>
          match result with
          | .full nextExpiry =>
              (up.sign .full).setTask j
                { task with backoff := task.backoff.reset, phase := .full nextExpiry }
          | .short closedByPeer =>
              let phase := if 0 < closedByPeer then .discouraged true else .short
              up.setTask j { task with phase }
  | .task j, .put _ =>
      match up.tasks[j]? with
      | none => up
      | some task => up.setTask j { task with phase := .top }
  | _, _ => up

/-- One step under the lock. -/
def advance (up : UpstreamPool ν) : Option (UpstreamPool ν) :=
  match up.holder, up.pool.critical with
  | some holder, some critical =>
      let (pool, outcome) := up.pool.advance critical
      let next := { up with
        pool := pool.record outcome, signs := up.signs ++ up.pool.finds critical }
      match outcome with
      | none => some next
      | some outcome => some ((next.setHolder none).deliver holder outcome)
  | _, _ => none

/-- The pool can be dropped once no `take` and no step of the task holds it. -/
def drop (up : UpstreamPool ν) : Option (UpstreamPool ν) :=
  if up.holder = none ∧ ∀ take ∈ up.takes, take.isReturned then some { up with dropped := true }
  else none

def step (up : UpstreamPool ν) : PrewarmEvent → Option (UpstreamPool ν)
  | .tick elapsed => up.onPool (.tick elapsed) up.holder
  | .act stream peer => up.onPool (.act stream peer) up.holder
  | .call runtime =>
      if up.dropped then none else some { up with takes := up.takes ++ [.calling runtime] }
  | .take i => up.takes[i]?.bind (up.stepTake i)
  | .advance => up.advance
  | .task j => up.tasks[j]?.bind (up.stepTask j)
  | .elapse j => up.tasks[j]?.bind (up.elapse j)
  | .connect j => up.tasks[j]?.bind (up.dialed j · true)
  | .fail j => up.tasks[j]?.bind (up.dialed j · false)
  | .drop => up.drop
  | .abort j => up.tasks[j]?.bind (up.abort j)

end UpstreamPool

end Zicade.Upstream
