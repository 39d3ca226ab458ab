import Mathlib.Data.List.DropRight
import Mathlib.Data.List.Nodup
import Mathlib.Data.List.Range
import Zicade.Proxy.Book

/-! # What the book holds

The moves of one connection and of the tracker, as relations, and what they keep:
which entries are in the book, in what order, and how many starts have returned.
-/

namespace Zicade.Proxy.Book

open Zicade.Foundation

namespace Life

/-- The entry has been put in the book. -/
def wasInserted : Life → Bool
  | .taken => false
  | _ => true

/-- The record is in the history. -/
def isMoved : Life → Bool
  | .moved => true
  | _ => false

/-- The entry is among the open ones. -/
def inBook : Life → Bool
  | .taken | .moved => false
  | _ => true

theorem inBook_eq (life : Life) : life.inBook = (life.wasInserted && !life.isMoved) := by
  cases life <;> rfl

end Life

/-- A call that reports a failure and has not returned. -/
def Op.isFailing : Op → Bool
  | .failCount _ | .failState _ => true
  | _ => false

/-- What a call that reports no failure leaves of an entry. -/
structure Entry.WorksTo (old new : Entry) : Prop where
  id : new.id = old.id
  failed : new.failed = old.failed
  state : new.state = old.state ∨ (old.state = .connecting ∧ new.state = .open)
  up : old.up ≤ new.up
  down : old.down ≤ new.down

namespace Entry

theorem worksTo_self (entry : Entry) : entry.WorksTo entry :=
  ⟨rfl, rfl, .inl rfl, le_rfl, le_rfl⟩

theorem worksTo_setOpen (entry : Entry) : entry.WorksTo entry.setOpen := by
  unfold setOpen
  split
  next hstate => exact ⟨rfl, rfl, .inr ⟨hstate, rfl⟩, le_rfl, le_rfl⟩
  next => exact entry.worksTo_self

theorem worksTo_setStatus (entry : Entry) (status : Nat) :
    entry.WorksTo (entry.setStatus status) := by
  unfold setStatus
  split <;> exact ⟨rfl, rfl, .inl rfl, le_rfl, le_rfl⟩

end Entry

namespace Conn

/-- The steps of a connection: its start returns, handles come and go, the last
one is dropped, a call does its work, and a failure is claimed, counted and
recorded; then the entry is marked and copied. -/
inductive Steps (conn : Conn) (now : Nat) : ConnStep → Conn → Added → Prop
  | count (hlife : conn.life = .inserted) :
      Steps conn now .count { conn with life := .live 0 } { requests := 1 }
  | handles {event others} (others' : Nat) (hlife : conn.life = .live others)
      (hevent : event = .clone ∨ event = .drop) :
      Steps conn now event { conn with life := .live others' } {}
  | release (hlife : conn.life = .live 0) (hidle : conn.ops = []) :
      Steps conn now .drop { conn with life := .closing } {}
  | work {event entry ops added others} (hlife : conn.life = .live others)
      (hentry : conn.entry.WorksTo entry)
      (hops : ops.filter Op.isFailing = conn.ops.filter Op.isFailing)
      (hadded : added.requests = 0 ∧ added.failed = 0)
      (hevent : event ≠ .count ∧ ∀ reason, event = .fail reason → conn.entry.failed = true) :
      Steps conn now event { conn with entry, ops } added
  | claim {others} (reason : String) (hlife : conn.life = .live others)
      (hfresh : conn.entry.failed = false) :
      Steps conn now (.fail reason)
        { conn with
          entry := { conn.entry with failed := true }
          ops := conn.ops ++ [.failCount reason] } {}
  | counted {i reason others} (hlife : conn.life = .live others)
      (hop : conn.ops[i]? = some (.failCount reason)) :
      Steps conn now (.resume i) { conn with ops := conn.ops.set i (.failState reason) }
        { failed := 1 }
  | record {i reason others} (hlife : conn.life = .live others)
      (hop : conn.ops[i]? = some (.failState reason)) :
      Steps conn now (.resume i)
        { conn with
          entry := { conn.entry with state := .failed reason }, ops := conn.ops.eraseIdx i } {}
  | mark (hlife : conn.life = .closing) :
      Steps conn now .mark { conn with entry := conn.entry.markClosed, life := .marked } {}
  | copy (hlife : conn.life = .marked) :
      Steps conn now .copy
        { conn with life := .copied (conn.entry.snapshot conn.entry.up now) } {}

/-- A call that is over and reported no failure leaves the failing ones. -/
theorem filter_eraseIdx {ops : List Op} {i : Nat} {op : Op} (hget : ops[i]? = some op)
    (hother : op.isFailing = false) :
    (ops.eraseIdx i).filter Op.isFailing = ops.filter Op.isFailing := by
  obtain ⟨front, back, hops, herase, -⟩ := exists_split hget
  have hback : (op :: back).filter Op.isFailing = back.filter Op.isFailing :=
    List.filter_cons_of_neg (by simp [hother])
  rw [herase, hops, List.filter_append, List.filter_append, hback]

theorem filter_concat {ops : List Op} {op : Op} (hother : op.isFailing = false) :
    (ops ++ [op]).filter Op.isFailing = ops.filter Op.isFailing := by
  simp [List.filter_append, hother]

theorem resume_cases {conn after : Conn} {now i others : Nat} {added : Added}
    (hlife : conn.life = .live others) (hresume : conn.resume i = some (after, added)) :
    conn.Steps now (.resume i) after added := by
  unfold resume at hresume
  split at hresume
  next inbound outbound hop =>
    obtain ⟨rfl, rfl⟩ := Prod.mk.inj (Option.some.inj hresume)
    exact .work hlife conn.entry.worksTo_self (filter_eraseIdx hop rfl) ⟨rfl, rfl⟩
      ⟨nofun, nofun⟩
  next hop =>
    obtain ⟨rfl, rfl⟩ := Prod.mk.inj (Option.some.inj hresume)
    exact .work hlife conn.entry.worksTo_setOpen (filter_eraseIdx hop rfl) ⟨rfl, rfl⟩
      ⟨nofun, nofun⟩
  next reason hop =>
    obtain ⟨rfl, rfl⟩ := Prod.mk.inj (Option.some.inj hresume)
    exact .counted hlife hop
  next reason hop =>
    obtain ⟨rfl, rfl⟩ := Prod.mk.inj (Option.some.inj hresume)
    exact .record hlife hop
  next => cases hresume

theorem call_cases {conn after : Conn} {now others : Nat} {event : ConnStep} {added : Added}
    (hlife : conn.life = .live others) (hcall : conn.call event = some (after, added)) :
    conn.Steps now event after added := by
  cases event with
  | addUp n =>
      obtain ⟨rfl, rfl⟩ := Prod.mk.inj (Option.some.inj hcall)
      exact .work hlife ⟨rfl, rfl, .inl rfl, Nat.le_add_right _ _, le_rfl⟩ (filter_concat rfl)
        ⟨rfl, rfl⟩ ⟨nofun, nofun⟩
  | addDown n =>
      obtain ⟨rfl, rfl⟩ := Prod.mk.inj (Option.some.inj hcall)
      exact .work hlife ⟨rfl, rfl, .inl rfl, le_rfl, Nat.le_add_right _ _⟩ (filter_concat rfl)
        ⟨rfl, rfl⟩ ⟨nofun, nofun⟩
  | setRoute route =>
      obtain ⟨rfl, rfl⟩ := Prod.mk.inj (Option.some.inj hcall)
      exact .work hlife ⟨rfl, rfl, .inl rfl, le_rfl, le_rfl⟩ rfl ⟨rfl, rfl⟩ ⟨nofun, nofun⟩
  | setOpen =>
      obtain ⟨rfl, rfl⟩ := Prod.mk.inj (Option.some.inj hcall)
      exact .work hlife conn.entry.worksTo_setOpen rfl ⟨rfl, rfl⟩ ⟨nofun, nofun⟩
  | setStatus status =>
      obtain ⟨rfl, rfl⟩ := Prod.mk.inj (Option.some.inj hcall)
      exact .work hlife (conn.entry.worksTo_setStatus status) (filter_concat rfl)
        ⟨rfl, rfl⟩ ⟨nofun, nofun⟩
  | fail reason =>
      simp only [call] at hcall
      split at hcall
      next hfailed =>
        obtain ⟨rfl, rfl⟩ := Prod.mk.inj (Option.some.inj hcall)
        exact .work hlife conn.entry.worksTo_self rfl ⟨rfl, rfl⟩ ⟨nofun, fun _ _ => hfailed⟩
      next hfresh =>
        obtain ⟨rfl, rfl⟩ := Prod.mk.inj (Option.some.inj hcall)
        exact .claim reason hlife (Bool.not_eq_true _ ▸ hfresh)
  | resume i => exact resume_cases hlife hcall
  | count => cases hcall
  | clone => cases hcall
  | drop => cases hcall
  | mark => cases hcall
  | copy => cases hcall

/-- Every step of a connection is one of these. -/
theorem step_cases {conn after : Conn} {now : Nat} {event : ConnStep} {added : Added}
    (hstep : conn.step now event = some (after, added)) : conn.Steps now event after added := by
  unfold step at hstep
  split at hstep
  next hlife =>
    obtain ⟨rfl, rfl⟩ := Prod.mk.inj (Option.some.inj hstep)
    exact .count hlife
  next others hlife =>
    obtain ⟨rfl, rfl⟩ := Prod.mk.inj (Option.some.inj hstep)
    exact .handles _ hlife (.inl rfl)
  next others hlife =>
    obtain ⟨rfl, rfl⟩ := Prod.mk.inj (Option.some.inj hstep)
    exact .handles _ hlife (.inr rfl)
  next hlife =>
    split at hstep
    next hidle =>
      obtain ⟨rfl, rfl⟩ := Prod.mk.inj (Option.some.inj hstep)
      exact .release hlife hidle
    next => cases hstep
  next others hlife _ _ _ => exact call_cases hlife hstep
  next hlife =>
    obtain ⟨rfl, rfl⟩ := Prod.mk.inj (Option.some.inj hstep)
    exact .mark hlife
  next hlife =>
    obtain ⟨rfl, rfl⟩ := Prod.mk.inj (Option.some.inj hstep)
    exact .copy hlife
  next => cases hstep

/-- What a step outside the book keeps of the connection's place in it. -/
theorem Steps.keeps {conn after : Conn} {now : Nat} {event : ConnStep} {added : Added}
    (hsteps : conn.Steps now event after added) :
    after.entry.id = conn.entry.id ∧ conn.life.inBook = true ∧ after.life.inBook = true := by
  cases hsteps with
  | count hlife => simp [hlife, Life.inBook]
  | handles others' hlife hevent => simp [hlife, Life.inBook]
  | release hlife hidle => simp [hlife, Life.inBook]
  | work hlife hentry hops hadded hevent => simp [hlife, hentry.id, Life.inBook]
  | claim reason hlife hfresh => simp [hlife, Life.inBook]
  | counted hlife hop => simp [hlife, Life.inBook]
  | record hlife hop => simp [hlife, Life.inBook]
  | mark hlife =>
      refine ⟨?_, by simp [hlife, Life.inBook], rfl⟩
      unfold Entry.markClosed
      split <;> rfl
  | copy hlife => simp [hlife, Life.inBook]

theorem Steps.not_moved {conn after : Conn} {now : Nat} {event : ConnStep} {added : Added}
    (hsteps : conn.Steps now event after added) : conn.life ≠ .moved := by
  intro hmoved
  have hbook := hsteps.keeps.2.1
  rw [hmoved] at hbook
  cases hbook

/-- A request is counted by the step that ends a start, and by no other. -/
theorem Steps.requests {conn after : Conn} {now : Nat} {event : ConnStep} {added : Added}
    (hsteps : conn.Steps now event after added) :
    added.requests = (decide (event = .count)).toNat := by
  cases hsteps with
  | count hlife => rfl
  | handles others' hlife hevent => rcases hevent with rfl | rfl <;> rfl
  | release hlife hidle => rfl
  | work hlife hentry hops hadded hevent =>
      rw [hadded.1, decide_eq_false hevent.1, Bool.toNat_false]
  | claim reason hlife hfresh => rfl
  | counted hlife hop => rfl
  | record hlife hop => rfl
  | mark hlife => rfl
  | copy hlife => rfl

/-- A copy on its way to the history has the id of its entry. -/
def CopiedAsIs (conn : Conn) : Prop :=
  ∀ finished, conn.life = .copied finished → finished.id = conn.entry.id

/-- Only the copy step makes a copy, and it leaves the entry that it copies. -/
theorem Steps.of_copied {conn after : Conn} {now : Nat} {event : ConnStep} {added : Added}
    (hsteps : conn.Steps now event after added) {finished : ConnectionSnapshot}
    (hcopied : after.life = .copied finished) :
    after.entry = conn.entry ∧ finished = conn.entry.snapshot conn.entry.up now := by
  cases hsteps with
  | count hlife => cases hcopied
  | handles others' hlife hevent => cases hcopied
  | release hlife hidle => cases hcopied
  | work hlife hentry hops hadded hevent => cases hlife.symm.trans hcopied
  | claim reason hlife hfresh => cases hlife.symm.trans hcopied
  | counted hlife hop => cases hlife.symm.trans hcopied
  | record hlife hop => cases hlife.symm.trans hcopied
  | mark hlife => cases hcopied
  | copy hlife => exact ⟨rfl, (Life.copied.inj hcopied).symm⟩

theorem Steps.copiedAsIs {conn after : Conn} {now : Nat} {event : ConnStep} {added : Added}
    (hsteps : conn.Steps now event after added) : after.CopiedAsIs := by
  intro finished hcopied
  obtain ⟨hentry, rfl⟩ := hsteps.of_copied hcopied
  rw [hentry]
  rfl

/-! A call that nothing interrupts does to the entry and the counters what the
same operation does to the tracked entry of one connection. -/

section Uninterrupted

/-- Take steps of one connection, adding up what they count. -/
def stepAll (conn : Conn) (metrics : Metrics) (events : List ConnStep) :
    Option (Conn × Metrics) :=
  run (fun (state : Conn × Metrics) event =>
    (state.1.step 0 event).map fun moved =>
      (moved.1,
        { failedRequests := state.2.failedRequests + moved.2.failed
          bytesIn := state.2.bytesIn + moved.2.bytesIn
          bytesOut := state.2.bytesOut + moved.2.bytesOut })) (conn, metrics) events

/-- A connection with its counters, as one tracked entry. -/
def tracked (conn : Conn) (metrics : Metrics) : Tracked :=
  { entry :=
      { up := conn.entry.up, down := conn.entry.down, failed := conn.entry.failed
        state := conn.entry.state }
    metrics }

variable {conn : Conn} {others : Nat} (metrics : Metrics)

theorem stepAll_addUp (hlife : conn.life = .live others) (hidle : conn.ops = []) (n : Nat) :
    ∃ after metrics', conn.stepAll metrics [.addUp n, .resume 0] = some (after, metrics') ∧
      after.ops = [] ∧ after.tracked metrics' = (conn.tracked metrics).addUp n := by
  obtain ⟨entry, life, ops⟩ := conn
  obtain rfl : life = .live others := hlife
  obtain rfl : ops = [] := hidle
  exact ⟨_, _, rfl, rfl, rfl⟩

theorem stepAll_addDown (hlife : conn.life = .live others) (hidle : conn.ops = []) (n : Nat) :
    ∃ after metrics', conn.stepAll metrics [.addDown n, .resume 0] = some (after, metrics') ∧
      after.ops = [] ∧ after.tracked metrics' = (conn.tracked metrics).addDown n := by
  obtain ⟨entry, life, ops⟩ := conn
  obtain rfl : life = .live others := hlife
  obtain rfl : ops = [] := hidle
  exact ⟨_, _, rfl, rfl, rfl⟩

theorem stepAll_setOpen (hlife : conn.life = .live others) (hidle : conn.ops = []) :
    ∃ after metrics', conn.stepAll metrics [.setOpen] = some (after, metrics') ∧
      after.ops = [] ∧ after.tracked metrics' = (conn.tracked metrics).setOpen := by
  obtain ⟨entry, life, ops⟩ := conn
  obtain rfl : life = .live others := hlife
  obtain rfl : ops = [] := hidle
  refine ⟨_, _, rfl, rfl, ?_⟩
  by_cases hstate : entry.state = .connecting
  · simp [tracked, withEntry, Entry.setOpen, Tracked.setOpen, hstate]
  · simp [tracked, withEntry, Entry.setOpen, Tracked.setOpen, hstate]

/-- A failure reported again returns at once; a first one counts and records. -/
theorem stepAll_fail (hlife : conn.life = .live others) (hidle : conn.ops = []) (reason : String) :
    ∃ after metrics',
      conn.stepAll metrics
          (.fail reason :: if conn.entry.failed then [] else [.resume 0, .resume 0]) =
        some (after, metrics') ∧
      after.ops = [] ∧ after.tracked metrics' = (conn.tracked metrics).fail reason := by
  obtain ⟨entry, life, ops⟩ := conn
  obtain rfl : life = .live others := hlife
  obtain rfl : ops = [] := hidle
  cases hflag : entry.failed with
  | true =>
      refine ⟨⟨entry, .live others, []⟩, metrics, ?_, rfl, ?_⟩
      · simp [stepAll, run_cons, step, call, hflag]
      · simp [tracked, Tracked.fail, hflag]
  | false =>
      refine ⟨⟨{ entry with failed := true, state := .failed reason }, .live others, []⟩,
        { metrics with failedRequests := metrics.failedRequests + 1 }, ?_, rfl, ?_⟩
      · simp [stepAll, run_cons, step, call, resume, hflag]
      · simp [tracked, Tracked.fail, hflag]

end Uninterrupted

end Conn

namespace Tracker

/-- The steps of the tracker, each with what it found. -/
inductive Steps (tracker : Tracker) : Event → Tracker → Prop
  | take (kind : ConnectionKind) (target route : Text) (client : Option Text) (openedAt : Nat) :
      Steps tracker (.take kind target route client openedAt)
        (tracker.take kind target route client openedAt)
  | insert {address conn} (hlock : tracker.reader = none)
      (hget : tracker.conns[address]? = some conn) (hlife : conn.life = .taken) :
      Steps tracker (.insert address) (tracker.insert address conn)
  | own {address event conn after added} (hget : tracker.conns[address]? = some conn)
      (hown : conn.Steps tracker.now event after added) :
      Steps tracker (.own address event)
        ({ tracker with conns := tracker.conns.set address after }.add added)
  | move {address conn finished} (hlock : tracker.reader = none)
      (hget : tracker.conns[address]? = some conn) (hlife : conn.life = .copied finished) :
      Steps tracker (.move address) (tracker.move address conn finished)
  | lock (hlock : tracker.reader = none) :
      Steps tracker .lock
        { tracker with reader := some { todo := tracker.opened.values.reverse } }
  | readUp {reader address rest conn} (hreader : tracker.reader = some reader)
      (htodo : reader.todo = address :: rest) (hup : reader.up = none)
      (hget : tracker.conns[address]? = some conn) :
      Steps tracker .readUp
        { tracker with reader := some { reader with up := some conn.entry.up } }
  | readRest {reader address rest up conn} (hreader : tracker.reader = some reader)
      (htodo : reader.todo = address :: rest) (hup : reader.up = some up)
      (hget : tracker.conns[address]? = some conn) :
      Steps tracker .readRest
        { tracker with
          reader := some
            { todo := rest
              taken := reader.taken ++ [conn.entry.snapshot up tracker.now] } }
  | unlock {reader} (hreader : tracker.reader = some reader) (htodo : reader.todo = []) :
      Steps tracker .unlock
        { tracker with
          reader := none
          shown := tracker.shown ++ [reader.taken ++ tracker.closed.reverse] }
  | tick (elapsed : Nat) :
      Steps tracker (.tick elapsed) { tracker with now := tracker.now + elapsed }

theorem step_cases {tracker next : Tracker} {event : Event}
    (hstep : tracker.step event = some next) : tracker.Steps event next := by
  cases event with
  | take kind target route client openedAt =>
      obtain rfl := Option.some.inj hstep
      exact .take kind target route client openedAt
  | insert address =>
      simp only [step] at hstep
      split at hstep
      next conn hlock hget =>
        split at hstep
        next hlife =>
          obtain rfl := Option.some.inj hstep
          exact .insert hlock hget hlife
        next => cases hstep
      next => cases hstep
  | own address event =>
      simp only [step] at hstep
      split at hstep
      next conn hget =>
        obtain ⟨⟨after, added⟩, hown, rfl⟩ := Option.map_eq_some_iff.mp hstep
        exact .own hget (Conn.step_cases hown)
      next => cases hstep
  | move address =>
      simp only [step] at hstep
      split at hstep
      next conn hlock hget =>
        split at hstep
        next finished hlife =>
          obtain rfl := Option.some.inj hstep
          exact .move hlock hget hlife
        next => cases hstep
      next => cases hstep
  | lock =>
      simp only [step] at hstep
      split at hstep
      next hlock =>
        obtain rfl := Option.some.inj hstep
        exact .lock hlock
      next => cases hstep
  | readUp =>
      obtain ⟨reader, hreader, hread⟩ := Option.bind_eq_some_iff.mp hstep
      unfold Tracker.readUp at hread
      split at hread
      next address rest htodo hup =>
        split at hread
        next conn hget =>
          obtain rfl := Option.some.inj hread
          exact .readUp hreader htodo hup hget
        next => cases hread
      next => cases hread
  | readRest =>
      obtain ⟨reader, hreader, hread⟩ := Option.bind_eq_some_iff.mp hstep
      unfold Tracker.readRest at hread
      split at hread
      next address rest up htodo hup =>
        split at hread
        next conn hget =>
          obtain rfl := Option.some.inj hread
          exact .readRest hreader htodo hup hget
        next => cases hread
      next => cases hread
  | unlock =>
      obtain ⟨reader, hreader, hread⟩ := Option.bind_eq_some_iff.mp hstep
      unfold Tracker.unlock at hread
      split at hread
      next htodo =>
        obtain rfl := Option.some.inj hread
        exact .unlock hreader htodo
      next => cases hread
  | tick elapsed =>
      obtain rfl := Option.some.inj hstep
      exact .tick elapsed

/-- What is in the history of records stays there. -/
theorem Steps.moved {tracker next : Tracker} {event : Event}
    (hsteps : tracker.Steps event next) {record : ConnectionSnapshot}
    (hrecord : record ∈ tracker.moved) : record ∈ next.moved := by
  cases hsteps with
  | move hlock hget hlife => exact List.mem_append_left _ hrecord
  | take kind target route client openedAt => exact hrecord
  | insert hlock hget hlife => exact hrecord
  | own hget hown => exact hrecord
  | lock hlock => exact hrecord
  | readUp hreader htodo hup hget => exact hrecord
  | readRest hreader htodo hup hget => exact hrecord
  | unlock hreader htodo => exact hrecord
  | tick elapsed => exact hrecord

/-- The connection with an id is at a stage of its life. -/
def among (conns : List Conn) (p : Life → Bool) : Nat → Bool
  | 0 => false
  | address + 1 => (conns[address]?).any fun conn => p conn.life

/-- What the book and the history hold, against the lives of the connections. -/
structure Consistent (tracker : Tracker) : Prop where
  numbered : tracker.nextId = tracker.conns.length
  ids : ∀ address conn, tracker.conns[address]? = some conn → conn.entry.id = address + 1
  copied : ∀ conn ∈ tracker.conns, conn.CopiedAsIs
  opened : ∀ id address, tracker.opened[id]? = some address ↔
    id = address + 1 ∧ among tracker.conns Life.inBook id = true
  inserted : ∀ id, id ∈ tracker.inserted ↔ among tracker.conns Life.wasInserted id = true
  moved : ∀ id, id ∈ tracker.moved.map (·.id) ↔ among tracker.conns Life.isMoved id = true
  movedOnce : (tracker.moved.map (·.id)).Nodup
  history : tracker.closed = tracker.moved.rtake historyLen
  reading : ∀ reader, tracker.reader = some reader →
    reader.taken.map (·.id) ++ reader.todo.map (· + 1) = tracker.opened.keys.reverse

/-- A full window that drops its oldest leaves room for one more. -/
theorem drop_rtake (moved : List ConnectionSnapshot) (n : Nat) :
    (if (moved.rtake (n + 1)).length = n + 1 then (moved.rtake (n + 1)).drop 1
      else moved.rtake (n + 1)) = moved.rtake n := by
  simp only [List.rtake, List.length_drop]
  split
  next hfull =>
    rw [List.drop_drop]
    congr 1
    omega
  next hroom =>
    congr 1
    omega

/-- The history is the end of all the records there have been. -/
theorem pushClosed_rtake (moved : List ConnectionSnapshot) (finished : ConnectionSnapshot) :
    pushClosed (moved.rtake historyLen) finished = (moved ++ [finished]).rtake historyLen := by
  have hroom := drop_rtake moved 199
  have hpush := List.rtake_concat_succ moved 199 finished
  exact (congrArg (· ++ [finished]) hroom).trans hpush.symm

theorem toList_values (opened : Std.TreeMap Nat Nat) :
    opened.values = opened.toList.map Prod.snd := by
  have hvalues : opened.values = opened.foldr (fun _ address rest => address :: rest) [] := rfl
  rw [hvalues, Std.TreeMap.foldr_eq_foldr_toList, List.map_eq_foldr]

variable {conns : List Conn}

theorem among_self {address : Nat} {conn : Conn} (p : Life → Bool)
    (hget : conns[address]? = some conn) : among conns p (address + 1) = p conn.life := by
  rw [among, hget, Option.any_some]

theorem among_set {address : Nat} {conn after : Conn} (p : Life → Bool)
    (hget : conns[address]? = some conn) (id : Nat) :
    among (conns.set address after) p id =
      if id = address + 1 then p after.life else among conns p id := by
  cases id with
  | zero => rfl
  | succ j =>
      rw [among, any_getElem?_set _ hget]
      simp only [Nat.add_right_cancel_iff, eq_comm]
      rfl

/-- A move within a stage leaves who is at that stage. -/
theorem among_set_of_eq {address : Nat} {conn after : Conn} (p : Life → Bool)
    (hget : conns[address]? = some conn) (hsame : p after.life = p conn.life) (id : Nat) :
    among (conns.set address after) p id = among conns p id := by
  rw [among_set p hget]
  split
  next heq => rw [hsame, heq, among_self p hget]
  next => rfl

/-- A connection that only has an id is at no stage yet. -/
theorem among_concat {fresh : Conn} (p : Life → Bool) (hfresh : p fresh.life = false) (id : Nat) :
    among (conns ++ [fresh]) p id = among conns p id := by
  cases id with
  | zero => rfl
  | succ j =>
      rw [among, among, List.getElem?_append]
      split
      next => rfl
      next hpast =>
        rw [List.getElem?_eq_none (Nat.not_lt.mp hpast)]
        cases j - conns.length with
        | zero => exact hfresh
        | succ rest => rfl

variable {tracker : Tracker}

namespace Consistent

/-- The open entries in the order of the book have ascending ids. -/
theorem keys_eq (hcons : tracker.Consistent) :
    tracker.opened.keys = tracker.opened.values.map (· + 1) := by
  rw [← Std.TreeMap.map_fst_toList_eq_keys, toList_values, List.map_map]
  refine List.map_congr_left fun pair hmem => ?_
  have hget := Std.TreeMap.mem_toList_iff_getElem?_eq_some.mp hmem
  exact ((hcons.opened pair.1 pair.2).mp hget).1

theorem start : ({} : Tracker).Consistent where
  numbered := rfl
  ids := by simp
  copied := by simp
  opened := by
    intro id address
    cases id <;> simp [among]
  inserted := by
    intro id
    cases id <;> simp [among]
  moved := by
    intro id
    cases id <;> simp [among]
  movedOnce := List.nodup_nil
  history := rfl
  reading := nofun

theorem take (hcons : tracker.Consistent) (kind : ConnectionKind) (target route : Text)
    (client : Option Text) (openedAt : Nat) :
    (tracker.take kind target route client openedAt).Consistent := by
  refine { hcons with
    numbered := ?_, ids := ?_, copied := ?_, opened := ?_, inserted := ?_, moved := ?_ }
  · rw [Tracker.take, hcons.numbered, List.length_append, List.length_singleton]
  · intro address conn hget
    simp only [Tracker.take, List.getElem?_append] at hget
    split at hget
    next => exact hcons.ids address conn hget
    next hpast =>
      obtain ⟨hzero, rfl⟩ := List.getElem?_eq_some_iff.mp hget
      have hnumbered := hcons.numbered
      simp only [List.length_singleton, List.getElem_singleton] at hzero ⊢
      omega
  · intro conn hmem
    rcases List.mem_append.mp hmem with hold | hnew
    · exact hcons.copied conn hold
    · rw [List.mem_singleton.mp hnew]
      exact nofun
  · intro id address
    rw [Tracker.take, among_concat _ rfl]
    exact hcons.opened id address
  · intro id
    rw [Tracker.take, among_concat _ rfl]
    exact hcons.inserted id
  · intro id
    rw [Tracker.take, among_concat _ rfl]
    exact hcons.moved id

theorem ids_set (hcons : tracker.Consistent) {address : Nat} {conn after : Conn}
    (hget : tracker.conns[address]? = some conn) (hid : after.entry.id = conn.entry.id) :
    ∀ j party, (tracker.conns.set address after)[j]? = some party → party.entry.id = j + 1 := by
  intro j party hparty
  rcases getElem?_set_cases hparty with ⟨rfl, rfl⟩ | ⟨-, hold⟩
  · rw [hid, hcons.ids j conn hget]
  · exact hcons.ids j party hold

theorem insert (hcons : tracker.Consistent) {address : Nat} {conn : Conn}
    (hlock : tracker.reader = none) (hget : tracker.conns[address]? = some conn)
    (hlife : conn.life = .taken) : (tracker.insert address conn).Consistent := by
  have hid := hcons.ids address conn hget
  refine { hcons with
    numbered := ?_, ids := ?_, copied := ?_, opened := ?_, inserted := ?_, moved := ?_
    reading := ?_ }
  · rw [Tracker.insert, List.length_set, hcons.numbered]
  · exact hcons.ids_set hget rfl
  · exact forall_mem_set hcons.copied nofun
  · intro id j
    rw [Tracker.insert, Std.TreeMap.getElem?_insert, among_set _ hget, hid]
    by_cases hnew : id = address + 1
    · simp [hnew, Life.inBook]
    · rw [if_neg hnew, if_neg (by simpa using Ne.symm hnew)]
      exact hcons.opened id j
  · intro id
    rw [Tracker.insert, among_set _ hget, hid, List.mem_append, hcons.inserted]
    by_cases hnew : id = address + 1 <;> simp [hnew, Life.wasInserted]
  · intro id
    rw [Tracker.insert, among_set_of_eq _ hget (by rw [hlife]; rfl)]
    exact hcons.moved id
  · intro reader hreader
    cases hlock.symm.trans hreader

theorem own (hcons : tracker.Consistent) {address : Nat} {event : ConnStep} {conn after : Conn}
    {added : Added} (hget : tracker.conns[address]? = some conn)
    (hown : conn.Steps tracker.now event after added) :
    ({ tracker with conns := tracker.conns.set address after }.add added).Consistent := by
  obtain ⟨hid, hbefore, hafter⟩ := hown.keeps
  have hstages := hbefore
  have hstages' := hafter
  rw [Life.inBook_eq, Bool.and_eq_true, Bool.not_eq_true'] at hstages hstages'
  refine { hcons with
    numbered := ?_, ids := ?_, copied := ?_, opened := ?_, inserted := ?_, moved := ?_ }
  · rw [Tracker.add, List.length_set, hcons.numbered]
  · exact hcons.ids_set hget hid
  · exact forall_mem_set hcons.copied hown.copiedAsIs
  · intro id j
    rw [Tracker.add, among_set_of_eq _ hget (by rw [hbefore, hafter])]
    exact hcons.opened id j
  · intro id
    rw [Tracker.add, among_set_of_eq _ hget (by rw [hstages.1, hstages'.1])]
    exact hcons.inserted id
  · intro id
    rw [Tracker.add, among_set_of_eq _ hget (by rw [hstages.2, hstages'.2])]
    exact hcons.moved id

theorem move (hcons : tracker.Consistent) {address : Nat} {conn : Conn}
    {finished : ConnectionSnapshot} (hlock : tracker.reader = none)
    (hget : tracker.conns[address]? = some conn) (hlife : conn.life = .copied finished) :
    (tracker.move address conn finished).Consistent := by
  have hid := hcons.ids address conn hget
  have hfinished : finished.id = address + 1 :=
    (hcons.copied conn (List.mem_of_getElem? hget) finished hlife).trans hid
  refine { hcons with
    numbered := ?_, ids := ?_, copied := ?_, opened := ?_, inserted := ?_, moved := ?_
    movedOnce := ?_, history := ?_, reading := ?_ }
  · rw [Tracker.move, List.length_set, hcons.numbered]
  · exact hcons.ids_set hget rfl
  · exact forall_mem_set hcons.copied nofun
  · intro id j
    rw [Tracker.move, Std.TreeMap.getElem?_erase, among_set _ hget, hid]
    by_cases hgone : id = address + 1
    · simp [hgone, Life.inBook]
    · rw [if_neg hgone, if_neg (by simpa using Ne.symm hgone)]
      exact hcons.opened id j
  · intro id
    rw [Tracker.move, among_set_of_eq _ hget (by rw [hlife]; rfl)]
    exact hcons.inserted id
  · intro id
    rw [Tracker.move, among_set _ hget, List.map_append, List.mem_append, hcons.moved]
    by_cases hnew : id = address + 1 <;> simp [hnew, hfinished, Life.isMoved]
  · rw [Tracker.move, List.map_append, List.map_singleton, hfinished]
    refine List.nodup_append.mpr ⟨hcons.movedOnce, List.pairwise_singleton _ _, ?_⟩
    intro id hold other hnew
    -- a record was not in the history while it was being copied
    rw [List.mem_singleton.mp hnew]
    rintro rfl
    have hmoved := (hcons.moved _).mp hold
    rw [among_self _ hget, hlife] at hmoved
    cases hmoved
  · rw [Tracker.move, hcons.history]
    exact pushClosed_rtake tracker.moved finished
  · intro reader hreader
    cases hlock.symm.trans hreader

/-- Every step keeps the book consistent. -/
theorem step {event : Event} {next : Tracker} (hcons : tracker.Consistent)
    (hstep : tracker.step event = some next) : next.Consistent := by
  cases step_cases hstep with
  | take kind target route client openedAt => exact hcons.take kind target route client openedAt
  | insert hlock hget hlife => exact hcons.insert hlock hget hlife
  | own hget hown => exact hcons.own hget hown
  | move hlock hget hlife => exact hcons.move hlock hget hlife
  | lock hlock =>
      refine { hcons with reading := ?_ }
      intro reader hreader
      obtain rfl := Option.some.inj hreader
      rw [hcons.keys_eq, List.map_nil, List.nil_append, List.map_reverse]
  | @readUp reader address rest conn hreader htodo hup hget =>
      refine { hcons with reading := ?_ }
      intro after hnext
      obtain rfl := Option.some.inj hnext
      exact hcons.reading reader hreader
  | readRest hreader htodo hup hget =>
      refine { hcons with reading := ?_ }
      intro reader hnext
      obtain rfl := Option.some.inj hnext
      have hreading := hcons.reading _ hreader
      rw [htodo, List.map_cons] at hreading
      rw [List.map_append, List.append_assoc, ← hreading, List.map_singleton]
      rw [Entry.snapshot, hcons.ids _ _ hget, List.singleton_append]
  | unlock hreader htodo => exact { hcons with reading := nofun }
  | tick elapsed => exact { hcons with }

end Consistent

/-- The book is consistent after every run. -/
theorem consistent_of_run {events : List Event} {final : Tracker}
    (hrun : run Tracker.step {} events = some final) : final.Consistent :=
  run_invariant Consistent (fun _ _ _ hcons hstep => hcons.step hstep) .start hrun

end Tracker

/-- The last step of a start, which counts the request. -/
def Event.endsStart : Event → Bool
  | .own _ .count => true
  | _ => false

namespace Tracker

theorem Steps.requests {tracker next : Tracker} {event : Event}
    (hsteps : tracker.Steps event next) :
    next.totalRequests = tracker.totalRequests + event.endsStart.toNat := by
  cases hsteps with
  | @own address event conn after added hget hown =>
      rw [add, hown.requests]
      cases event <;> rfl
  | take kind target route client openedAt => rfl
  | insert hlock hget hlife => rfl
  | move hlock hget hlife => rfl
  | lock hlock => rfl
  | readUp hreader htodo hup hget => rfl
  | readRest hreader htodo hup hget => rfl
  | unlock hreader htodo => rfl
  | tick elapsed => rfl

theorem requests_of_run {events : List Event} {final : Tracker}
    (hrun : run Tracker.step {} events = some final) :
    final.totalRequests = events.countP Event.endsStart := by
  refine run_history_invariant
    (fun past tracker => tracker.totalRequests = past.countP Event.endsStart) rfl ?_ hrun
  intro past tracker event next hpast hstep
  rw [(step_cases hstep).requests, hpast, List.countP_append, List.countP_singleton]
  cases event.endsStart <;> rfl

namespace Consistent

variable {tracker : Tracker}

/-- Ids are handed out in order, so they are distinct. -/
theorem ids_eq (hcons : tracker.Consistent) :
    (tracker.conns.map fun conn => conn.entry.id) =
      (List.range tracker.conns.length).map (· + 1) := by
  refine List.ext_getElem (by simp) fun address hlt hlen => ?_
  rw [List.length_map] at hlt
  rw [List.getElem_map, List.getElem_map, List.getElem_range]
  exact hcons.ids address _ (List.getElem?_eq_getElem hlt)

theorem ids_nodup (hcons : tracker.Consistent) :
    (tracker.conns.map fun conn => conn.entry.id).Nodup := by
  rw [hcons.ids_eq]
  exact List.nodup_range.map fun _ _ heq => Nat.add_right_cancel heq

/-- A finished reading has gone through the open entries, newest first. -/
theorem taken_ids (hcons : tracker.Consistent) {reader : Reader}
    (hreader : tracker.reader = some reader) (htodo : reader.todo = []) :
    reader.taken.map (·.id) = tracker.opened.keys.reverse := by
  have hreading := hcons.reading reader hreader
  rwa [htodo, List.map_nil, List.append_nil] at hreading

theorem mem_keys (hcons : tracker.Consistent) (id : Nat) :
    id ∈ tracker.opened.keys ↔ id ∈ tracker.inserted ∧ id ∉ tracker.moved.map (·.id) := by
  rw [hcons.inserted, hcons.moved, Std.TreeMap.mem_keys, Std.TreeMap.mem_iff_isSome_getElem?]
  have hopened : tracker.opened[id]?.isSome = true ↔
      among tracker.conns Life.inBook id = true := by
    rw [Option.isSome_iff_exists]
    refine ⟨fun hget => ?_, fun hamong => ?_⟩
    · obtain ⟨address, hget⟩ := hget
      exact ((hcons.opened id address).mp hget).2
    · cases id with
      | zero => cases hamong
      | succ address => exact ⟨address, (hcons.opened _ _).mpr ⟨rfl, hamong⟩⟩
  rw [hopened]
  cases id with
  | zero => simp [among]
  | succ address =>
      cases hget : tracker.conns[address]? with
      | none => simp [among, hget]
      | some conn => simp [among, hget, Life.inBook_eq]

end Consistent

/-- Whatever the order of the steps: all ids are distinct, requests are the starts
that returned, and each snapshot lists the connections inserted and not yet moved
by descending id and then the newest records of the history, each id once. -/
theorem snapshot_exact {events : List Event} {final : Tracker}
    (hrun : run Tracker.step {} events = some final) :
    (final.conns.map fun conn => conn.entry.id).Nodup ∧
      final.totalRequests = events.countP Event.endsStart ∧
      ∀ next, final.step .unlock = some next →
        ∃ opened : List ConnectionSnapshot,
          next.shown = final.shown ++ [opened ++ final.moved.reverse.take historyLen] ∧
          (opened.map (·.id)).Pairwise (· > ·) ∧
          (∀ id, id ∈ opened.map (·.id) ↔
            id ∈ final.inserted ∧ id ∉ final.moved.map (·.id)) ∧
          ((opened ++ final.moved.reverse.take historyLen).map (·.id)).Nodup := by
  have hcons := consistent_of_run hrun
  refine ⟨hcons.ids_nodup, requests_of_run hrun, fun next hstep => ?_⟩
  cases step_cases hstep with
  | @unlock reader hreader htodo =>
      have htaken := hcons.taken_ids hreader htodo
      have hmem : ∀ id, id ∈ reader.taken.map (·.id) ↔
          id ∈ final.inserted ∧ id ∉ final.moved.map (·.id) := by
        intro id
        rw [htaken, List.mem_reverse]
        exact hcons.mem_keys id
      refine ⟨reader.taken, ?_, ?_, hmem, ?_⟩
      · rw [hcons.history, List.rtake_eq_reverse_take_reverse, List.reverse_reverse]
      · rw [htaken, List.pairwise_reverse]
        exact Std.TreeMap.ordered_keys.imp fun hlt => Nat.compare_eq_lt.mp hlt
      · rw [List.map_append, List.nodup_append]
        have hpart : ((final.moved.reverse.take historyLen).map (·.id)).Sublist
            (final.moved.reverse.map (·.id)) := (List.take_sublist _ _).map _
        have honce : (final.moved.reverse.map (·.id)).Nodup := by
          rw [List.map_reverse, List.nodup_reverse]
          exact hcons.movedOnce
        refine ⟨?_, honce.sublist hpart, ?_⟩
        · rw [htaken, List.nodup_reverse]
          exact Std.TreeMap.nodup_keys
        · intro id hopen other hold heq
          have hgone := hpart.subset hold
          rw [List.map_reverse, List.mem_reverse] at hgone
          exact ((hmem id).mp hopen).2 (heq ▸ hgone)

/-- Two tunnels whose insertions swap; the first closes before a snapshot. -/
def twoTunnels : List Event :=
  [.take .tunnel ['a'] ['d'] none 0, .take .tunnel ['b'] ['d'] none 0, .insert 1, .insert 0,
    .own 0 .count, .own 1 .count, .own 0 (.addUp 3), .own 0 (.resume 0), .own 0 .drop,
    .own 0 .mark, .own 0 .copy, .move 0, .lock, .readUp, .readRest]

theorem snapshot_exact_twoTunnels :
    ∃ final next, run Tracker.step {} twoTunnels = some final ∧
      final.step .unlock = some next ∧ final.totalRequests = 2 ∧
      ∃ opened : List ConnectionSnapshot,
        next.shown = final.shown ++ [opened ++ final.moved.reverse.take historyLen] ∧
        ∀ id, id ∈ opened.map (·.id) ↔ id ∈ final.inserted ∧ id ∉ final.moved.map (·.id) := by
  obtain ⟨-, hrequests, hsnapshot⟩ := @snapshot_exact twoTunnels _ rfl
  obtain ⟨opened, hshown, -, hopened, -⟩ := hsnapshot _ rfl
  exact ⟨_, _, rfl, rfl, hrequests, opened, hshown, hopened⟩

end Tracker

end Zicade.Proxy.Book
