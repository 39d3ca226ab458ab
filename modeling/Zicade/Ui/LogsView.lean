import Mathlib.Data.Fintype.Basic
import Mathlib.Data.List.Nodup
import Zicade.Foundation.Runs
import Zicade.Observe.LogStore

/-! # The log view

The view subscribes, replays the backlog into its buffer and then takes the live
events one by one. The buffer drops what is not newer than the newest it has
seen, which tells the backlog from the live events when both come in order.
-/

namespace Zicade.Ui

open Zicade.Foundation Zicade.Observe

/-- Lines kept on screen. -/
def maxLines : Nat := 2000

/-- A capped, de-duplicated tail of the log stream. -/
structure LogBuffer where
  capacity : Nat
  lastSeq : Nat := 0
  events : List LogEvent := []
  deriving DecidableEq, Repr

namespace LogBuffer

def new (capacity : Nat) : LogBuffer := { capacity }

/-- The event is taken for one that was already seen. -/
def seen (buffer : LogBuffer) (event : LogEvent) : Bool :=
  event.seq != 0 && decide (event.seq ≤ buffer.lastSeq)

def push (buffer : LogBuffer) (event : LogEvent) : LogBuffer :=
  if buffer.seen event then buffer
  else
    { buffer with
      lastSeq := max buffer.lastSeq event.seq
      events :=
        (if buffer.events.length = buffer.capacity then buffer.events.drop 1
          else buffer.events) ++ [event] }

variable {buffer : LogBuffer} {event : LogEvent}

theorem push_seen (hseen : buffer.seen event = true) : buffer.push event = buffer :=
  if_pos hseen

/-- The number after the newest is shown. -/
theorem push_next (hnext : event.seq = buffer.lastSeq + 1)
    (hroom : buffer.events.length < buffer.capacity) :
    buffer.push event =
      { buffer with lastSeq := buffer.lastSeq + 1, events := buffer.events ++ [event] } := by
  have hfresh : buffer.seen event = false := by
    simp [seen, hnext]
  rw [push, hfresh, if_neg Bool.false_ne_true, if_neg (Nat.ne_of_lt hroom), hnext,
    Nat.max_eq_right (Nat.le_succ _)]

/-- Events in sequence are shown one after the other. -/
theorem foldl_push {recent : List LogEvent}
    (hseqs : ∀ (i : Nat) (event : LogEvent), recent[i]? = some event →
      event.seq = buffer.lastSeq + i + 1)
    (hroom : buffer.events.length + recent.length ≤ buffer.capacity) :
    recent.foldl push buffer =
      { buffer with
        lastSeq := buffer.lastSeq + recent.length, events := buffer.events ++ recent } := by
  induction recent generalizing buffer with
  | nil => rw [List.append_nil]; rfl
  | cons event rest ih =>
      rw [List.length_cons] at hroom
      rw [List.foldl_cons, push_next (hseqs 0 event rfl) (by omega), ih]
      · rw [List.length_cons, List.append_assoc, List.singleton_append]
        congr 1
        simp only
        omega
      · intro i other hget
        have hseq := hseqs (i + 1) other hget
        simp only
        omega
      · simp only [List.length_append, List.length_singleton]
        omega

end LogBuffer

/-- A subscription with its queue of broadcasts, and the buffer once the backlog
has been replayed. The last two fields are history: what `recent` returned, and
what was broadcast since the subscription. -/
structure Viewer where
  queue : List LogEvent := []
  buffer : Option LogBuffer := none
  backlog : List LogEvent := []
  sent : List LogEvent := []
  deriving DecidableEq, Repr

namespace Viewer

/-- A broadcast arrives; a receiver that lags loses the oldest. -/
def hear (viewer : Viewer) (depth : Nat) (event : LogEvent) : Viewer :=
  { viewer with
    queue := (if viewer.queue.length = depth then viewer.queue.drop 1 else viewer.queue) ++ [event]
    sent := viewer.sent ++ [event] }

/-- Push every backlog event into a new buffer. -/
def replay (viewer : Viewer) (recent : List LogEvent) : Option Viewer :=
  match viewer.buffer with
  | none =>
      some { viewer with
        buffer := some (recent.foldl LogBuffer.push (.new maxLines)), backlog := recent }
  | some _ => none

/-- Take the next live event. -/
def receive (viewer : Viewer) : Option Viewer :=
  match viewer.buffer, viewer.queue with
  | some buffer, event :: rest =>
      some { viewer with queue := rest, buffer := some (buffer.push event) }
  | _, _ => none

end Viewer

/-- The store with the one view of it. -/
structure LogSystem where
  store : LogStore
  viewer : Option Viewer := none
  deriving DecidableEq, Repr

inductive LogSystemEvent
  | push (event : PushStep)
  | subscribe
  | replay
  | receive
  deriving DecidableEq, Repr

namespace LogSystem

def new (cap : Nat) : LogSystem := { store := .new cap }

/-- What a broadcast does to the view, if there is one. -/
def heard (system : LogSystem) (sent : Option LogEvent) : Option Viewer :=
  match system.viewer, sent with
  | some viewer, some event => some (viewer.hear system.store.depth event)
  | viewer, _ => viewer

def step (system : LogSystem) : LogSystemEvent → Option LogSystem
  | .push event =>
      (system.store.step event).map fun moved =>
        { store := moved.1, viewer := system.heard moved.2 }
  | .subscribe =>
      match system.viewer with
      | none => some { system with viewer := some {} }
      | some _ => none
  | .replay =>
      (system.viewer.bind fun viewer => viewer.replay system.store.recent).map fun viewer =>
        { system with viewer := some viewer }
  | .receive =>
      (system.viewer.bind Viewer.receive).map fun viewer => { system with viewer := some viewer }

/-- The receiver does not lag. -/
def HearsAll (system : LogSystem) : PushStep → Prop
  | .send _ => ∀ viewer ∈ system.viewer, viewer.queue.length < system.store.depth
  | _ => True

/-- No capacity is exceeded: the ring evicts nothing, the receiver does not lag and
the buffer drops no line. -/
def Roomy (system : LogSystem) : LogSystemEvent → Prop
  | .push event => system.store.Roomy event ∧ system.HearsAll event
  | .subscribe => True
  | .replay => system.store.ring.length ≤ maxLines
  | .receive => ∀ viewer ∈ system.viewer, ∀ buffer ∈ viewer.buffer, ∀ event ∈ viewer.queue.head?,
      buffer.seen event = true ∨ buffer.events.length < buffer.capacity

/-- Once the backlog has been read, an event is broadcast only while no smaller
number that is in the ring but was not in the backlog waits to be. -/
def SendsInOrder (system : LogSystem) : PushStep → Prop
  | .send i => ∀ viewer ∈ system.viewer, viewer.buffer.isSome = true →
      ∀ push ∈ system.store.pushes[i]?, ∀ other ∈ system.store.pushes,
        other.inRing = true → other.isSent = false → other.event ∉ viewer.backlog →
          push.event.seq ≤ other.event.seq
  | _ => True

/-- Numbers go to the ring in order and then to a view that has read the ring. -/
def InOrder (system : LogSystem) : LogSystemEvent → Prop
  | .push event => system.store.AppendsInOrder event ∧ system.SendsInOrder event
  | _ => True

instance (system : LogSystem) : ∀ event, Decidable (system.HearsAll event)
  | .send _ => by dsimp only [HearsAll]; infer_instance
  | .number _ => .isTrue trivial
  | .append _ => .isTrue trivial

instance (system : LogSystem) : ∀ event, Decidable (system.SendsInOrder event)
  | .send _ => by dsimp only [SendsInOrder]; infer_instance
  | .number _ => .isTrue trivial
  | .append _ => .isTrue trivial

instance (system : LogSystem) : ∀ event, Decidable (system.Roomy event)
  | .push event => inferInstanceAs (Decidable (system.store.Roomy event ∧ system.HearsAll event))
  | .subscribe => .isTrue trivial
  | .replay => inferInstanceAs (Decidable (system.store.ring.length ≤ maxLines))
  | .receive => by dsimp only [Roomy]; infer_instance

instance (system : LogSystem) : ∀ event, Decidable (system.InOrder event)
  | .push event =>
      inferInstanceAs (Decidable (system.store.AppendsInOrder event ∧ system.SendsInOrder event))
  | .subscribe => .isTrue trivial
  | .replay => .isTrue trivial
  | .receive => .isTrue trivial

end LogSystem

namespace Viewer

/-- Until the backlog is replayed, what was broadcast waits in the queue. -/
structure Waiting (store : LogStore) (viewer : Viewer) : Prop where
  queue : viewer.queue = viewer.sent
  heard : ∀ event ∈ viewer.sent, event ∈ store.ring

/-- After it, the buffer shows the start of the ring, and the queue has what comes
next in it, among events of the backlog. -/
structure Showing (store : LogStore) (viewer : Viewer) (buffer : LogBuffer)
    (shown sent : Nat) : Prop where
  shown_le : shown ≤ sent
  sent_le : sent ≤ store.ring.length
  backlog_le : viewer.backlog.length ≤ shown
  backlog : viewer.backlog = store.ring.take viewer.backlog.length
  events : buffer.events = store.ring.take shown
  lastSeq : buffer.lastSeq = shown
  queue : viewer.queue.filter (fun event => viewer.backlog.length < event.seq) =
    (store.ring.drop shown).take (sent - shown)
  queued : ∀ event ∈ viewer.queue, event ∈ store.ring
  heard : ∀ event ∈ viewer.sent, event ∈ store.ring.take sent
  boundary : ∀ (i : Nat) (push : Push), viewer.backlog.length ≤ i →
    store.pushes[i]? = some push → (push.isSent = true ↔ i < sent)

def InStep (store : LogStore) (viewer : Viewer) : Prop :=
  match viewer.buffer with
  | none => viewer.Waiting store
  | some buffer => ∃ shown sent, viewer.Showing store buffer shown sent

variable {store next : LogStore} {viewer : Viewer} {buffer : LogBuffer} {shown sent : Nat}

/-- A store that only grows leaves a view as it is. -/
theorem Showing.grow (hshowing : viewer.Showing store buffer shown sent)
    (hring : store.ring <+: next.ring)
    (hpushes : ∀ (i : Nat) (push : Push), next.pushes[i]? = some push →
      (∃ before, store.pushes[i]? = some before ∧ before.isSent = push.isSent) ∨
        (push.isSent = false ∧ store.ring.length ≤ i)) :
    viewer.Showing next buffer shown sent := by
  obtain ⟨more, hnext⟩ := hring
  have hshown := hshowing.shown_le.trans hshowing.sent_le
  have hbacklog := hshowing.backlog_le.trans hshown
  have htake {n : Nat} (hle : n ≤ store.ring.length) :
      next.ring.take n = store.ring.take n := by
    rw [← hnext, List.take_append_of_le_length hle]
  refine ⟨hshowing.shown_le, ?_, hshowing.backlog_le, ?_, ?_, hshowing.lastSeq, ?_, ?_, ?_, ?_⟩
  · rw [← hnext, List.length_append]
    exact hshowing.sent_le.trans (Nat.le_add_right _ _)
  · rw [htake hbacklog]
    exact hshowing.backlog
  · rw [htake hshown]
    exact hshowing.events
  · have hsent := hshowing.sent_le
    rw [hshowing.queue, ← hnext, List.drop_append_of_le_length hshown,
      List.take_append_of_le_length (by rw [List.length_drop]; omega)]
  · exact fun event hmem => hnext ▸ List.mem_append_left _ (hshowing.queued event hmem)
  · rw [htake hshowing.sent_le]
    exact hshowing.heard
  · intro i push hle hget
    rcases hpushes i push hget with ⟨before, hbefore, hsame⟩ | ⟨hunsent, hpast⟩
    · rw [← hsame]
      exact hshowing.boundary i before hle hbefore
    · have hsent := hshowing.sent_le
      rw [hunsent]
      simp only [Bool.false_eq_true, false_iff]
      omega

theorem InStep.grow (hinStep : viewer.InStep store) (hring : store.ring <+: next.ring)
    (hpushes : ∀ (i : Nat) (push : Push), next.pushes[i]? = some push →
      (∃ before, store.pushes[i]? = some before ∧ before.isSent = push.isSent) ∨
        (push.isSent = false ∧ store.ring.length ≤ i)) :
    viewer.InStep next := by
  unfold InStep at hinStep ⊢
  split
  next hbuffer =>
    rw [hbuffer] at hinStep
    exact ⟨hinStep.queue, fun event hmem => hring.subset (hinStep.heard event hmem)⟩
  next buffer hbuffer =>
    rw [hbuffer] at hinStep
    obtain ⟨shown, sent, hshowing⟩ := hinStep
    exact ⟨shown, sent, hshowing.grow hring hpushes⟩

/-- Beyond the backlog, a broadcast in order is the next of the ring: an earlier one
that is in the ring is still to be sent, and was not in the backlog. -/
theorem Showing.eq_sent (hshowing : viewer.Showing store buffer shown sent)
    (hseq : store.InSequence) {i : Nat} {event : LogEvent}
    (hget : store.pushes[i]? = some (.appended event))
    (horder : ∀ other ∈ store.pushes, other.inRing = true → other.isSent = false →
      other.event ∉ viewer.backlog → event.seq ≤ other.event.seq)
    (hpast : viewer.backlog.length ≤ i) : i = sent := by
  have hring : store.ring[i]? = some event := hseq.ring_event hget rfl
  have hlt : i < store.ring.length := (List.getElem?_eq_some_iff.mp hring).1
  have hsent : sent ≤ i := by
    by_contra hdone
    have hboundary := hshowing.boundary i _ hpast hget
    exact Bool.false_ne_true (hboundary.mpr (Nat.not_le.mp hdone))
  by_contra hlater
  have hlast := hshowing.backlog_le.trans hshowing.shown_le
  obtain ⟨other, hother, hevent⟩ := hseq.ring sent (by omega)
  have hunsent : other.isSent = false := by
    rw [Bool.eq_false_iff]
    exact fun hdone => Nat.lt_irrefl _ ((hshowing.boundary sent other hlast hother).mp hdone)
  have hfresh : other.event ∉ viewer.backlog := by
    intro hmem
    rw [hshowing.backlog] at hmem
    obtain ⟨j, hj⟩ := List.mem_iff_getElem?.mp hmem
    have hbound := (List.getElem?_eq_some_iff.mp hj).1
    rw [List.length_take] at hbound
    rw [List.getElem?_take_of_lt (by omega)] at hj
    have hfirst := hseq.ring_seq hj
    rw [hseq.ring_seq hevent] at hfirst
    omega
  have hinRing := (hseq.appended sent other hother).mpr (by omega)
  have hle := horder other (List.mem_of_getElem? hother) hinRing hunsent hfresh
  rw [hseq.ring_seq hring, hseq.ring_seq hevent] at hle
  omega

/-- A broadcast in order is the next of the ring, or one of the backlog. -/
theorem Showing.send (hshowing : viewer.Showing store buffer shown sent)
    (hseq : store.InSequence) {i : Nat} {event : LogEvent}
    (hget : store.pushes[i]? = some (.appended event))
    (horder : ∀ other ∈ store.pushes, other.inRing = true → other.isSent = false →
      other.event ∉ viewer.backlog → event.seq ≤ other.event.seq) :
    ∃ sent', Showing { store with pushes := store.pushes.set i (.sent event) }
      { viewer with queue := viewer.queue ++ [event], sent := viewer.sent ++ [event] }
      buffer shown sent' := by
  have hring : store.ring[i]? = some event := hseq.ring_event hget rfl
  have hnumber : event.seq = i + 1 := hseq.ring_seq hring
  have hlt : i < store.ring.length := (List.getElem?_eq_some_iff.mp hring).1
  have hqueued : ∀ other ∈ viewer.queue ++ [event], other ∈ store.ring := by
    intro other hmem
    rcases List.mem_append.mp hmem with hold | hnew
    · exact hshowing.queued other hold
    · exact List.mem_singleton.mp hnew ▸ List.mem_of_getElem? hring
  by_cases hbacklog : i < viewer.backlog.length
  · -- an event of the backlog, which the buffer will drop
    refine ⟨sent, { hshowing with queue := ?_, queued := hqueued, heard := ?_, boundary := ?_ }⟩
    · have hold : [event].filter (fun event => viewer.backlog.length < event.seq) = [] := by
        rw [List.filter_singleton, decide_eq_false (by omega)]
        rfl
      exact (List.filter_append _ _).trans (by rw [hold, List.append_nil, hshowing.queue])
    · intro other hmem
      rcases List.mem_append.mp hmem with hold | hnew
      · exact hshowing.heard other hold
      · have hle := hshowing.backlog_le.trans hshowing.shown_le
        rw [List.mem_singleton.mp hnew]
        exact List.mem_of_getElem? (i := i) (by rw [List.getElem?_take_of_lt (by omega), hring])
    · intro j push hle hpush
      rcases getElem?_set_cases hpush with ⟨rfl, rfl⟩ | ⟨-, hold⟩
      · exact absurd hbacklog (Nat.not_lt.mpr hle)
      · exact hshowing.boundary j push hle hold
  · have hnext : i = sent := hshowing.eq_sent hseq hget horder (Nat.not_lt.mp hbacklog)
    subst hnext
    refine ⟨i + 1, { hshowing with
      shown_le := hshowing.shown_le.trans (Nat.le_succ _), sent_le := hlt, queue := ?_
      queued := hqueued, heard := ?_, boundary := ?_ }⟩
    · have hnew : [event].filter (fun event => viewer.backlog.length < event.seq) = [event] := by
        rw [List.filter_singleton, decide_eq_true (by omega)]
        rfl
      refine (List.filter_append _ _).trans ?_
      have hle := hshowing.shown_le
      rw [hnew, hshowing.queue, show i + 1 - shown = i - shown + 1 by omega, List.take_add_one,
        List.getElem?_drop, show shown + (i - shown) = i by omega, hring]
      rfl
    · intro other hmem
      rw [List.take_add_one, hring]
      rcases List.mem_append.mp hmem with hold | hnew
      · exact List.mem_append_left _ (hshowing.heard other hold)
      · exact List.mem_append_right _ hnew
    · intro j push hle hpush
      rcases getElem?_set_cases hpush with ⟨rfl, rfl⟩ | ⟨hne, hold⟩
      · simp [Push.isSent]
      · rw [hshowing.boundary j push hle hold]
        omega

/-- A broadcast waits in the queue, whether the backlog has been replayed or not. -/
theorem InStep.hear (hinStep : viewer.InStep store) (hseq : store.InSequence) {i : Nat}
    {event : LogEvent} (hget : store.pushes[i]? = some (.appended event))
    (horder : viewer.buffer.isSome = true → ∀ other ∈ store.pushes, other.inRing = true →
      other.isSent = false → other.event ∉ viewer.backlog → event.seq ≤ other.event.seq) :
    InStep { store with pushes := store.pushes.set i (.sent event) }
      { viewer with queue := viewer.queue ++ [event], sent := viewer.sent ++ [event] } := by
  unfold InStep at hinStep ⊢
  split
  next hbuffer =>
    rw [hbuffer] at hinStep
    refine ⟨congrArg (· ++ [event]) hinStep.queue, fun other hmem => ?_⟩
    rcases List.mem_append.mp hmem with hold | hnew
    · exact hinStep.heard other hold
    · rw [List.mem_singleton.mp hnew]
      exact List.mem_of_getElem? (hseq.ring_event hget rfl)
  next buffer hbuffer =>
    rw [hbuffer] at hinStep
    obtain ⟨shown, sent, hshowing⟩ := hinStep
    obtain ⟨sent', hsent⟩ := hshowing.send hseq hget (horder (by rw [hbuffer]; rfl))
    exact ⟨shown, sent', hsent⟩

/-- The next live event is shown when it is new, and is dropped when the backlog
had it. -/
theorem Showing.receive (hshowing : viewer.Showing store buffer shown sent)
    (hseq : store.InSequence) {event : LogEvent} {rest : List LogEvent}
    (hqueue : viewer.queue = event :: rest)
    (hroom : buffer.seen event = true ∨ buffer.events.length < buffer.capacity) :
    ∃ shown', Showing store { viewer with queue := rest, buffer := some (buffer.push event) }
      (buffer.push event) shown' sent := by
  have hfilter := hshowing.queue
  rw [hqueue] at hfilter
  have hqueued : ∀ other ∈ rest, other ∈ store.ring := fun other hmem =>
    hshowing.queued other (hqueue ▸ List.mem_cons_of_mem _ hmem)
  by_cases hbacklog : event.seq ≤ viewer.backlog.length
  · have hmem := hshowing.queued event (hqueue ▸ List.mem_cons_self)
    obtain ⟨j, hj⟩ := List.mem_iff_getElem?.mp hmem
    have hnumber := hseq.ring_seq hj
    have hle := hbacklog.trans hshowing.backlog_le
    have hnonzero : event.seq ≠ 0 := by omega
    have hseen : buffer.seen event = true := by
      simp [LogBuffer.seen, hshowing.lastSeq, hle, hnonzero]
    rw [LogBuffer.push_seen hseen]
    refine ⟨shown, { hshowing with queue := ?_, queued := hqueued }⟩
    rw [List.filter_cons_of_neg (by simpa using hbacklog)] at hfilter
    exact hfilter
  · rw [List.filter_cons_of_pos (by simpa using hbacklog)] at hfilter
    obtain ⟨n, hn⟩ : ∃ n, sent - shown = n + 1 := by
      cases hleft : sent - shown with
      | zero => simp [hleft] at hfilter
      | succ n => exact ⟨n, rfl⟩
    have hsent := hshowing.sent_le
    have hlt : shown < store.ring.length := by omega
    rw [hn, List.drop_eq_getElem_cons hlt, List.take_succ_cons] at hfilter
    obtain ⟨hevent, hrest⟩ := List.cons.inj hfilter
    have hget : store.ring[shown]? = some event := by rw [hevent, List.getElem?_eq_getElem hlt]
    have hnumber : event.seq = buffer.lastSeq + 1 := by
      rw [hshowing.lastSeq, hseq.ring_seq hget]
    have hfresh : buffer.seen event = false := by simp [LogBuffer.seen, hnumber]
    rw [LogBuffer.push_next hnumber (hroom.resolve_left (by simp [hfresh]))]
    refine ⟨shown + 1, { hshowing with
      shown_le := by omega, backlog_le := hshowing.backlog_le.trans (Nat.le_succ _), events := ?_
      lastSeq := congrArg (· + 1) hshowing.lastSeq, queue := ?_, queued := hqueued }⟩
    · rw [List.take_add_one, hget, hshowing.events]
      rfl
    · rw [show sent - (shown + 1) = n by omega]
      exact hrest

/-- The replay shows the ring as it is, and what was broadcast so far is in it. -/
theorem Waiting.replay (hwaiting : viewer.Waiting store) (hseq : store.InSequence)
    (hroom : store.ring.length ≤ maxLines) :
    Showing store
      { viewer with
        buffer := some (store.ring.foldl LogBuffer.push (.new maxLines)), backlog := store.ring }
      (store.ring.foldl LogBuffer.push (.new maxLines)) store.ring.length store.ring.length := by
  have hreplay : store.ring.foldl LogBuffer.push (.new maxLines) =
      { capacity := maxLines, lastSeq := store.ring.length, events := store.ring } := by
    rw [LogBuffer.foldl_push]
    · simp [LogBuffer.new]
    · intro i event hget
      rw [hseq.ring_seq hget]
      simp [LogBuffer.new]
    · simpa [LogBuffer.new] using hroom
  rw [hreplay]
  have hsent : ∀ event ∈ viewer.sent, event.seq ≤ store.ring.length := by
    intro event hmem
    obtain ⟨i, hi⟩ := List.mem_iff_getElem?.mp (hwaiting.heard event hmem)
    have hlt := (List.getElem?_eq_some_iff.mp hi).1
    rw [hseq.ring_seq hi]
    omega
  refine ⟨le_rfl, le_rfl, le_rfl, List.take_length.symm, List.take_length.symm, rfl, ?_, ?_, ?_, ?_⟩
  · rw [Nat.sub_self, List.take_zero, List.filter_eq_nil_iff, hwaiting.queue]
    intro event hmem
    simpa using hsent event hmem
  · exact hwaiting.queue ▸ hwaiting.heard
  · rw [List.take_length]
    exact hwaiting.heard
  · intro i push hle hget
    have hring : push.inRing = false := by
      rw [Bool.eq_false_iff]
      exact fun hring => Nat.not_lt.mpr hle ((hseq.appended i push hget).mp hring)
    cases push with
    | numbered event => simpa [Push.isSent] using hle
    | appended event => cases hring
    | sent event => cases hring

end Viewer

namespace LogSystem

/-- The store is in sequence, and so is the view of it. -/
structure InStep (system : LogSystem) : Prop where
  store : system.store.InSequence
  viewer : ∀ viewer ∈ system.viewer, viewer.InStep system.store

theorem heard_none (system : LogSystem) : system.heard none = system.viewer := by
  cases hviewer : system.viewer <;> simp [heard, hviewer]

variable {system next : LogSystem}

/-- A step of a push reaches the view only as a broadcast. -/
theorem InStep.push (hinStep : system.InStep) {event : PushStep}
    (hroomy : system.Roomy (.push event)) (horder : system.InOrder (.push event))
    (hstep : system.step (.push event) = some next) : next.InStep := by
  obtain ⟨⟨store, sent⟩, hstore, rfl⟩ := Option.map_eq_some_iff.mp hstep
  obtain ⟨hroom, hhears⟩ := hroomy
  obtain ⟨happends, hsends⟩ := horder
  have hsteps := LogStore.step_cases hstore
  obtain ⟨hseq, hring⟩ := hinStep.store.step hroom happends hsteps
  refine ⟨hseq, fun viewer hviewer => ?_⟩
  cases hsteps with
  | number event =>
      refine (hinStep.viewer viewer (system.heard_none ▸ hviewer)).grow hring fun i push hget => ?_
      rw [List.getElem?_append] at hget
      split at hget
      next => exact .inl ⟨push, hget, rfl⟩
      next hpast =>
        obtain ⟨hzero, rfl⟩ := List.getElem?_eq_some_iff.mp hget
        have hlength := hinStep.store.length_le
        exact .inr ⟨by rw [List.getElem_singleton]; rfl, by omega⟩
  | @append i event hget =>
      refine (hinStep.viewer viewer (system.heard_none ▸ hviewer)).grow hring fun j push hpush => ?_
      rcases getElem?_set_cases hpush with ⟨rfl, rfl⟩ | ⟨-, hold⟩
      · exact .inl ⟨_, hget, rfl⟩
      · exact .inl ⟨push, hold, rfl⟩
  | @send i event hget =>
      cases hcase : system.viewer with
      | none => simp [heard, hcase] at hviewer
      | some before =>
          obtain rfl : before.hear system.store.depth event = viewer := by
            simpa [heard, hcase] using hviewer
          rw [Viewer.hear, if_neg (Nat.ne_of_lt (hhears before hcase))]
          exact (hinStep.viewer before hcase).hear hinStep.store hget fun hreplayed =>
            hsends before hcase hreplayed _ hget

theorem InStep.step (hinStep : system.InStep) {event : LogSystemEvent}
    (hroomy : system.Roomy event) (horder : system.InOrder event)
    (hstep : system.step event = some next) : next.InStep := by
  cases event with
  | push event => exact hinStep.push hroomy horder hstep
  | subscribe =>
      simp only [LogSystem.step] at hstep
      split at hstep
      next =>
        obtain rfl := Option.some.inj hstep
        refine ⟨hinStep.store, fun viewer hviewer => ?_⟩
        obtain rfl := Option.some.inj hviewer
        exact ⟨rfl, fun _ hmem => absurd hmem List.not_mem_nil⟩
      next => cases hstep
  | replay =>
      obtain ⟨after, hreplay, rfl⟩ := Option.map_eq_some_iff.mp hstep
      obtain ⟨before, hbefore, hreplay⟩ := Option.bind_eq_some_iff.mp hreplay
      have hwaiting := hinStep.viewer before hbefore
      unfold Viewer.replay at hreplay
      split at hreplay
      next hbuffer =>
        obtain rfl := Option.some.inj hreplay
        rw [Viewer.InStep, hbuffer] at hwaiting
        refine ⟨hinStep.store, fun viewer hviewer => ?_⟩
        obtain rfl := Option.some.inj hviewer
        exact ⟨_, _, hwaiting.replay hinStep.store hroomy⟩
      next => cases hreplay
  | receive =>
      obtain ⟨after, hreceive, rfl⟩ := Option.map_eq_some_iff.mp hstep
      obtain ⟨before, hbefore, hreceive⟩ := Option.bind_eq_some_iff.mp hreceive
      have hbeforeStep := hinStep.viewer before hbefore
      unfold Viewer.receive at hreceive
      split at hreceive
      next buffer event rest hbuffer hqueue =>
        obtain rfl := Option.some.inj hreceive
        rw [Viewer.InStep, hbuffer] at hbeforeStep
        obtain ⟨shown, sent, hshowing⟩ := hbeforeStep
        have hroom := hroomy before hbefore buffer hbuffer event (by rw [hqueue]; rfl)
        obtain ⟨shown', hshown⟩ := hshowing.receive hinStep.store hqueue hroom
        refine ⟨hinStep.store, fun viewer hviewer => ?_⟩
        obtain rfl := Option.some.inj hviewer
        exact ⟨shown', sent, hshown⟩
      next => cases hreceive

/-- A view that has replayed the backlog can take all that is queued. -/
theorem catches_up {viewer : Viewer} {buffer : LogBuffer} (hviewer : system.viewer = some viewer)
    (hbuffer : viewer.buffer = some buffer) :
    run step system (List.replicate viewer.queue.length .receive) =
      some { system with
        viewer := some { viewer with
          queue := [], buffer := some (viewer.queue.foldl LogBuffer.push buffer) } } := by
  obtain ⟨queue, _, backlog, sent⟩ := viewer
  obtain rfl := hbuffer
  obtain ⟨store, _⟩ := system
  obtain rfl := hviewer
  induction queue generalizing buffer with
  | nil => rfl
  | cons event rest ih =>
      rw [List.length_cons, List.replicate_succ, run_cons]
      exact ih

/-- In every run in which no capacity is exceeded and the numbers go to the ring and
to the view in order, the ring is ordered and a view that has caught up shows each
event of the backlog and each broadcast since it subscribed exactly once. -/
theorem shown_once {cap : Nat} {events : List LogSystemEvent} {final : LogSystem}
    (hmeets : StepsMeet step (fun system event => system.Roomy event ∧ system.InOrder event)
      (new cap) events)
    (hrun : run step (new cap) events = some final) :
    (final.store.ring.map (·.seq)).Pairwise (· < ·) ∧
      ∀ viewer ∈ final.viewer, ∀ buffer ∈ viewer.buffer, viewer.queue = [] →
        ∀ event ∈ viewer.backlog ++ viewer.sent, buffer.events.count event = 1 := by
  have hinStep : final.InStep :=
    run_invariant_of_stepsMeet InStep
      (fun _ _ _ hinStep hmeets hstep => hinStep.step hmeets.1 hmeets.2 hstep)
      ⟨.start cap, fun _ hviewer => by cases hviewer⟩ hmeets hrun
  refine ⟨hinStep.store.sorted, fun viewer hviewer buffer hbuffer hqueue event hmem => ?_⟩
  have hviewerStep := hinStep.viewer viewer hviewer
  rw [Viewer.InStep, Option.mem_def.mp hbuffer] at hviewerStep
  obtain ⟨shown, sent, hshowing⟩ := hviewerStep
  have hcaught : sent = shown := by
    have hleft := congrArg List.length hshowing.queue
    have hbounds := hshowing.shown_le
    have hsent := hshowing.sent_le
    rw [hqueue, List.filter_nil, List.length_nil, List.length_take, List.length_drop] at hleft
    omega
  have hshown : event ∈ buffer.events := by
    rw [hshowing.events]
    rcases List.mem_append.mp hmem with hbacklog | hsent
    · rw [hshowing.backlog] at hbacklog
      exact (List.take_sublist_take_left hshowing.backlog_le).subset hbacklog
    · exact hcaught ▸ hshowing.heard event hsent
  have honce : buffer.events.Nodup := by
    rw [hshowing.events]
    exact hinStep.store.nodup.sublist (List.take_sublist _ _)
  exact List.count_eq_one_of_mem honce hshown

def logged (message : Text) : LogEvent :=
  { seq := 0, timestamp := 0, level := ['I'], target := ['t'], message, fields := [] }

/-- Two threads log around the moment a view opens, each number in its turn. -/
def orderedRun : List LogSystemEvent :=
  [.push (.number (logged ['a'])), .subscribe, .push (.append 0), .replay,
    .push (.number (logged ['b'])), .push (.append 1), .push (.send 0), .push (.send 1),
    .receive, .receive]

theorem shown_once_orderedRun :
    ∃ final viewer buffer, run step (new 100) orderedRun = some final ∧
      final.viewer = some viewer ∧ viewer.buffer = some buffer ∧
      ∀ event ∈ viewer.backlog ++ viewer.sent, buffer.events.count event = 1 := by
  have hrun := @shown_once 100 orderedRun _ (by decide) rfl
  exact ⟨_, _, _, rfl, rfl, rfl, hrun.2 _ rfl _ rfl rfl⟩

/-- Two threads log to an open view; the second number overtakes the first. -/
def overtakenRun : List LogSystemEvent :=
  [.subscribe, .replay, .push (.number (logged ['a'])), .push (.number (logged ['b'])),
    .push (.append 1), .push (.append 0), .push (.send 1), .push (.send 0), .receive, .receive]

/-- Nothing lags and nothing overflows, but the overtaken event is never shown, and
the ring is out of order. -/
theorem overtaken_not_shown :
    ∃ final viewer buffer event, run step (new 100) overtakenRun = some final ∧
      StepsMeet step Roomy (new 100) overtakenRun ∧
      ¬ (final.store.ring.map (·.seq)).Pairwise (· < ·) ∧
      final.viewer = some viewer ∧ viewer.buffer = some buffer ∧ viewer.queue = [] ∧
      event ∈ viewer.sent ∧ buffer.events.count event = 0 :=
  ⟨_, _, _, { logged ['a'] with seq := 1 }, rfl, by decide, by decide, rfl, rfl, rfl, by decide,
    by decide⟩

end LogSystem

end Zicade.Ui
