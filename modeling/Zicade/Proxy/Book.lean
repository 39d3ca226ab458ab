import Mathlib.Algebra.Order.Group.Nat
import Zicade.Foundation.Parties
import Zicade.Foundation.Runs
import Zicade.Foundation.Text
import Zicade.Proxy.Tracker

/-! # The tracker as its callers share it

Any number of connections start, are worked on through their handles and close,
each in several steps, while snapshots are taken. Entries are cells of a heap; the
book holds the open ones by id and a bounded history of the closed ones, and its
lock is held through the whole of a snapshot. Ids and counters are natural numbers:
no process gets to 2 ^ 64 of them.
-/

namespace Zicade.Proxy.Book

open Zicade.Foundation

/-- How many finished connections the history keeps. -/
def historyLen : Nat := 200

/-- What kind of traffic a connection carries. -/
inductive ConnectionKind
  | tunnel
  | http (method : Text) (status : Option Nat)
  deriving DecidableEq, Repr

/-- A point-in-time copy of one connection, for display. -/
structure ConnectionSnapshot where
  id : Nat
  kind : ConnectionKind
  target : Text
  route : Text
  client : Option Text
  openedAt : Nat
  duration : Nat
  bytesUp : Nat
  bytesDown : Nat
  state : ConnectionState
  deriving DecidableEq, Repr

/-- Its `kind`, `route` and `state` are behind the entry's own lock. -/
structure Entry where
  id : Nat
  target : Text
  client : Option Text
  openedAt : Nat
  started : Nat
  up : Nat := 0
  down : Nat := 0
  failed : Bool := false
  kind : ConnectionKind
  route : Text
  state : ConnectionState := .connecting
  deriving DecidableEq, Repr

namespace Entry

/-- `Entry::snapshot`, with the upward bytes read before the rest. -/
def snapshot (entry : Entry) (up now : Nat) : ConnectionSnapshot :=
  { id := entry.id, kind := entry.kind, target := entry.target, route := entry.route
    client := entry.client, openedAt := entry.openedAt, duration := now - entry.started
    bytesUp := up, bytesDown := entry.down, state := entry.state }

/-- Bytes are flowing. -/
def setOpen (entry : Entry) : Entry :=
  if entry.state = .connecting then { entry with state := .open } else entry

/-- The origin answered an HTTP request; a tunnel has no status. -/
def setStatus (entry : Entry) (status : Nat) : Entry :=
  match entry.kind with
  | .tunnel => entry
  | .http method _ => { entry with kind := .http method (some status) }

def isFailed (entry : Entry) : Bool :=
  match entry.state with
  | .failed _ => true
  | _ => false

/-- The first step of `Tracker::close`. -/
def markClosed (entry : Entry) : Entry :=
  if entry.isFailed then entry else { entry with state := .closed }

end Entry

/-- What is left to do of a call on a handle: add to the totals, open after a
status, count a failure, record it. -/
inductive Op
  | addTotals (inbound outbound : Nat)
  | thenOpen
  | failCount (reason : String)
  | failState (reason : String)
  deriving DecidableEq, Repr

/-- A connection from the time its id is taken; `live` has one handle and others. -/
inductive Life
  | taken
  | inserted
  | live (others : Nat)
  | closing
  | marked
  | copied (finished : ConnectionSnapshot)
  | moved
  deriving DecidableEq, Repr

/-- A cell of the heap: an entry, its life, and the calls in progress on it. -/
structure Conn where
  entry : Entry
  life : Life := .taken
  ops : List Op := []
  deriving DecidableEq, Repr

/-- What a step adds to the proxy-wide counters. -/
structure Added where
  requests : Nat := 0
  failed : Nat := 0
  bytesIn : Nat := 0
  bytesOut : Nat := 0
  deriving DecidableEq, Repr

/-- A step of one connection outside the book: the end of its start, calls on its
handles with their later steps, and the beginning of its close. -/
inductive ConnStep
  | count
  | clone
  | drop
  | addUp (n : Nat)
  | addDown (n : Nat)
  | setRoute (route : Text)
  | setOpen
  | setStatus (status : Nat)
  | fail (reason : String)
  | resume (i : Nat)
  | mark
  | copy
  deriving DecidableEq, Repr

namespace Conn

def withEntry (conn : Conn) (entry : Entry) : Conn := { conn with entry }

/-- The call that is under way at `i` takes its next step. -/
def resume (conn : Conn) (i : Nat) : Option (Conn × Added) :=
  match conn.ops[i]? with
  | some (.addTotals inbound outbound) =>
      some ({ conn with ops := conn.ops.eraseIdx i }, { bytesIn := inbound, bytesOut := outbound })
  | some .thenOpen =>
      some ({ conn with entry := conn.entry.setOpen, ops := conn.ops.eraseIdx i }, {})
  | some (.failCount reason) =>
      some ({ conn with ops := conn.ops.set i (.failState reason) }, { failed := 1 })
  | some (.failState reason) =>
      some ({ conn with
        entry := { conn.entry with state := .failed reason }, ops := conn.ops.eraseIdx i }, {})
  | none => none

/-- A call takes its first step, on a handle that is kept through the call. -/
def call (conn : Conn) : ConnStep → Option (Conn × Added)
  | .addUp n =>
      some ({ conn with
        entry := { conn.entry with up := conn.entry.up + n }
        ops := conn.ops ++ [.addTotals 0 n] }, {})
  | .addDown n =>
      some ({ conn with
        entry := { conn.entry with down := conn.entry.down + n }
        ops := conn.ops ++ [.addTotals n 0] }, {})
  | .setRoute route => some (conn.withEntry { conn.entry with route }, {})
  | .setOpen => some (conn.withEntry conn.entry.setOpen, {})
  | .setStatus status =>
      some ({ conn with
        entry := conn.entry.setStatus status, ops := conn.ops ++ [.thenOpen] }, {})
  | .fail reason =>
      -- only the call that finds the flag unset goes on
      if conn.entry.failed then some (conn, {})
      else
        some ({ conn with
          entry := { conn.entry with failed := true }
          ops := conn.ops ++ [.failCount reason] }, {})
  | .resume i => conn.resume i
  | _ => none

def step (conn : Conn) (now : Nat) (event : ConnStep) : Option (Conn × Added) :=
  match conn.life, event with
  | .inserted, .count => some ({ conn with life := .live 0 }, { requests := 1 })
  | .live others, .clone => some ({ conn with life := .live (others + 1) }, {})
  | .live (others + 1), .drop => some ({ conn with life := .live others }, {})
  | .live 0, .drop =>
      -- the last handle: no call is under way on any
      if conn.ops = [] then some ({ conn with life := .closing }, {}) else none
  | .live _, event => conn.call event
  | .closing, .mark => some ({ conn with entry := conn.entry.markClosed, life := .marked }, {})
  | .marked, .copy =>
      some ({ conn with life := .copied (conn.entry.snapshot conn.entry.up now) }, {})
  | _, _ => none

end Conn

/-- A snapshot under way: the entries still to be read, newest first, those read,
and the upward bytes of the next once they are loaded. -/
structure Reader where
  todo : List Nat
  taken : List ConnectionSnapshot := []
  up : Option Nat := none
  deriving DecidableEq, Repr

/-- `opened` maps an id to the address of its entry; `closed` has its newest record
last. The last three fields are history that no step reads: the ids inserted, the
records moved, and the snapshots returned. -/
structure Tracker where
  nextId : Nat := 0
  conns : List Conn := []
  opened : Std.TreeMap Nat Nat := ∅
  closed : List ConnectionSnapshot := []
  reader : Option Reader := none
  totalRequests : Nat := 0
  failedRequests : Nat := 0
  bytesIn : Nat := 0
  bytesOut : Nat := 0
  now : Nat := 0
  inserted : List Nat := []
  moved : List ConnectionSnapshot := []
  shown : List (List ConnectionSnapshot) := []

inductive Event
  | take (kind : ConnectionKind) (target route : Text) (client : Option Text) (openedAt : Nat)
  | insert (address : Nat)
  | own (address : Nat) (event : ConnStep)
  | move (address : Nat)
  | lock
  | readUp
  | readRest
  | unlock
  | tick (elapsed : Nat)
  deriving DecidableEq, Repr

namespace Tracker

def add (tracker : Tracker) (added : Added) : Tracker :=
  { tracker with
    totalRequests := tracker.totalRequests + added.requests
    failedRequests := tracker.failedRequests + added.failed
    bytesIn := tracker.bytesIn + added.bytesIn
    bytesOut := tracker.bytesOut + added.bytesOut }

/-- Push a finished connection on the history, which drops its oldest when full. -/
def pushClosed (closed : List ConnectionSnapshot) (finished : ConnectionSnapshot) :
    List ConnectionSnapshot :=
  (if closed.length = historyLen then closed.drop 1 else closed) ++ [finished]

def take (tracker : Tracker) (kind : ConnectionKind) (target route : Text)
    (client : Option Text) (openedAt : Nat) : Tracker :=
  { tracker with
    nextId := tracker.nextId + 1
    conns := tracker.conns ++
      [{ entry :=
          { id := tracker.nextId + 1, kind, target, route, client, openedAt
            started := tracker.now } }] }

/-- Put the entry in the book. -/
def insert (tracker : Tracker) (address : Nat) (conn : Conn) : Tracker :=
  { tracker with
    conns := tracker.conns.set address { conn with life := .inserted }
    opened := tracker.opened.insert conn.entry.id address
    inserted := tracker.inserted ++ [conn.entry.id] }

/-- Move the entry from the open ones to the history. -/
def move (tracker : Tracker) (address : Nat) (conn : Conn) (finished : ConnectionSnapshot) :
    Tracker :=
  { tracker with
    conns := tracker.conns.set address { conn with life := .moved }
    opened := tracker.opened.erase conn.entry.id
    closed := pushClosed tracker.closed finished
    moved := tracker.moved ++ [finished] }

/-- Copy the entry that is next. -/
def readRest (tracker : Tracker) (reader : Reader) : Option Tracker :=
  match reader.todo, reader.up with
  | address :: rest, some up =>
      match tracker.conns[address]? with
      | some conn =>
          some { tracker with
            reader := some
              { todo := rest, taken := reader.taken ++ [conn.entry.snapshot up tracker.now] } }
      | none => none
  | _, _ => none

def readUp (tracker : Tracker) (reader : Reader) : Option Tracker :=
  match reader.todo, reader.up with
  | address :: _, none =>
      match tracker.conns[address]? with
      | some conn => some { tracker with reader := some { reader with up := some conn.entry.up } }
      | none => none
  | _, _ => none

/-- Return the snapshot: the open connections, then the history, newest first. -/
def unlock (tracker : Tracker) (reader : Reader) : Option Tracker :=
  if reader.todo = [] then
    some { tracker with
      reader := none
      shown := tracker.shown ++ [reader.taken ++ tracker.closed.reverse] }
  else none

/-- The book's lock is free for an insertion, a move or a snapshot only while no
snapshot is under way. -/
def step (tracker : Tracker) : Event → Option Tracker
  | .take kind target route client openedAt =>
      some (tracker.take kind target route client openedAt)
  | .insert address =>
      match tracker.reader, tracker.conns[address]? with
      | none, some conn =>
          if conn.life = .taken then some (tracker.insert address conn) else none
      | _, _ => none
  | .own address event =>
      match tracker.conns[address]? with
      | some conn =>
          (conn.step tracker.now event).map fun moved =>
            { tracker with conns := tracker.conns.set address moved.1 }.add moved.2
      | none => none
  | .move address =>
      match tracker.reader, tracker.conns[address]? with
      | none, some conn =>
          match conn.life with
          | .copied finished => some (tracker.move address conn finished)
          | _ => none
      | _, _ => none
  | .lock =>
      match tracker.reader with
      | none => some { tracker with reader := some { todo := tracker.opened.values.reverse } }
      | some _ => none
  | .readUp => tracker.reader.bind tracker.readUp
  | .readRest => tracker.reader.bind tracker.readRest
  | .unlock => tracker.reader.bind tracker.unlock
  | .tick elapsed => some { tracker with now := tracker.now + elapsed }

end Tracker

end Zicade.Proxy.Book
