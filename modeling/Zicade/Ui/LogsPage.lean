import Zicade.Foundation.Tail
import Zicade.Observe.Layer
import Zicade.Ui.LogsView

/-! # The log page

The whole way of a log line: an event passes the level filter, is numbered, goes to the ring
and to the view in steps that other threads come between, and is shown while it passes the
page's own filters. Here nothing is assumed of the order of those steps, and every capacity
may be exceeded.
-/

namespace Zicade.Ui

open Zicade.Foundation Zicade.Observe

/-- Which levels the list shows. -/
inductive Levels
  | all
  | warnings
  | errors
  deriving DecidableEq, Repr

namespace Levels

def admits (levels : Levels) (level : Text) : Bool :=
  match levels with
  | .all => true
  | .warnings => level == "WARN".toList || level == "ERROR".toList
  | .errors => level == "ERROR".toList

/-- The tabs, in the order of their labels. -/
def tabs : List Levels := [.all, .warnings, .errors]

/-- The most verbose level that is shown. -/
def most : Levels → Level
  | .all => .trace
  | .warnings => .warn
  | .errors => .error

/-- A tab shows a level and all that are more severe. -/
theorem admits_name (levels : Levels) (level : Level) :
    levels.admits level.name = (LevelFilter.upTo levels.most).enables level := by
  cases levels <;> cases level <;> decide

end Levels

/-- `[WARN] target: message key=value`, without the time. -/
def describe (event : LogEvent) : Text :=
  event.fields.foldl (fun line field => line ++ [' '] ++ field.1 ++ ['='] ++ field.2)
    (['['] ++ event.level ++ "] ".toList ++ event.target ++ ": ".toList ++ event.message)

/-- What is chosen on the page. -/
structure LogsPage where
  levels : Levels := .all
  search : Text := []
  deriving DecidableEq, Repr

/-- The line passes the page's filters; `lower` is `str::to_lowercase`. -/
def LogsPage.passes (lower : Text → Text) (page : LogsPage) (event : LogEvent) : Bool :=
  let needle := lower (trim page.search)
  page.levels.admits event.level &&
    (needle.isEmpty || contains needle (lower (describe event)))

/-- The process from the event filter to the page. The last two fields are history of the
view: what it took, and how many broadcasts it was told it had missed. -/
structure Logging where
  filter : LevelFilter
  system : LogSystem
  page : LogsPage := {}
  taken : List LogEvent := []
  skipped : Nat := 0
  deriving DecidableEq, Repr

inductive LoggingEvent
  | reload (level : Text)
  | log (emission : Emission) (sinceEpoch : Option Nat)
  | append (i : Nat)
  | send (i : Nat)
  | subscribe
  | replay
  | receive
  | pick (tab : Nat)
  | type (text : Text)
  | close
  deriving DecidableEq, Repr

namespace Logging

/-- A process that logs at a level and keeps `cap` records. -/
def start (level : Text) (cap : Nat) : Logging :=
  { filter := levelFilter level, system := .new cap }

/-- The buffer of a view that has replayed the backlog. -/
def buffer (logging : Logging) : Option LogBuffer := logging.system.viewer.bind Viewer.buffer

/-- A broadcast finds the queue of the view full. -/
def lags (logging : Logging) : Bool :=
  logging.system.viewer.any fun viewer => viewer.queue.length = logging.system.store.depth

def queued (logging : Logging) : List LogEvent :=
  (logging.system.viewer.map Viewer.queue).getD []

def step (logging : Logging) : LoggingEvent → Option Logging
  | .reload level => some { logging with filter := levelFilter level }
  | .log emission sinceEpoch =>
      if logging.filter.enables emission.level then
        (logging.system.step (.push (.number (onEvent emission sinceEpoch)))).map fun system =>
          { logging with system }
      else some logging
  | .append i =>
      (logging.system.step (.push (.append i))).map fun system => { logging with system }
  | .send i =>
      (logging.system.step (.push (.send i))).map fun system =>
        { logging with
          system, skipped := if logging.lags then logging.skipped + 1 else logging.skipped }
  | .subscribe => (logging.system.step .subscribe).map fun system => { logging with system }
  | .replay =>
      (logging.system.step .replay).map fun system =>
        { logging with system, taken := logging.system.store.recent }
  | .receive =>
      (logging.system.step .receive).map fun system =>
        { logging with system, taken := logging.taken ++ logging.queued.take 1 }
  | .pick tab =>
      if logging.buffer.isSome then
        some { logging with
          page := { logging.page with levels := (Levels.tabs[tab]?).getD .all } }
      else none
  | .type text =>
      if logging.buffer.isSome then
        some { logging with page := { logging.page with search := text } }
      else none
  | .close =>
      -- the window's views are dropped, and the subscription with them
      if logging.buffer.isSome then
        some { logging with
          system := { logging.system with viewer := none }, page := {}, taken := [], skipped := 0 }
      else none

/-- The lines on the page, oldest first. -/
def shown (lower : Text → Text) (logging : Logging) : List LogEvent :=
  match logging.buffer with
  | some buffer => buffer.events.filter (logging.page.passes lower)
  | none => []

end Logging

/-- The events that the filter of their time lets through, in the order they are logged. -/
def emitted : LevelFilter → List LoggingEvent → List (Emission × Option Nat)
  | _, [] => []
  | filter, .log emission sinceEpoch :: rest =>
      if filter.enables emission.level then (emission, sinceEpoch) :: emitted filter rest
      else emitted filter rest
  | _, .reload level :: rest => emitted (levelFilter level) rest
  | filter, _ :: rest => emitted filter rest

/-! ## The store and the buffer, whatever the order -/

/-- The events that have been numbered so far. -/
def numberedEvents (store : LogStore) : List LogEvent := store.pushes.map Push.event

/-- The events have the numbers of their places, and the ring has no others. -/
structure Counted (store : LogStore) : Prop where
  counted : store.seq = (numberedEvents store).length
  numbered : ∀ (i : Nat) (event : LogEvent),
    (numberedEvents store)[i]? = some event → event.seq = i + 1
  ring : ∀ event ∈ store.ring, event ∈ numberedEvents store

section Store

variable {store next : LogStore} {event : PushStep} {sent : Option LogEvent}

theorem numberedEvents_set {i : Nat} {old new : Push} (hget : store.pushes[i]? = some old)
    (hsame : new.event = old.event) :
    (store.pushes.set i new).map Push.event = numberedEvents store := by
  rw [List.map_set, hsame, numberedEvents]
  obtain ⟨hlt, rfl⟩ := List.getElem?_eq_some_iff.mp hget
  apply List.ext_getElem
  · rw [List.length_set]
  · intro j hleft hright
    rw [List.getElem_set]
    split
    next hsame => subst hsame; rw [List.getElem_map]
    next => rfl

theorem Counted.seq_pos (hcounted : Counted store) {event : LogEvent}
    (hmem : event ∈ numberedEvents store) : 0 < event.seq := by
  obtain ⟨i, hget⟩ := List.mem_iff_getElem?.mp hmem
  rw [hcounted.numbered i event hget]
  exact Nat.succ_pos i

theorem mem_pushRing {event other : LogEvent} (hmem : other ∈ store.pushRing event) :
    other ∈ store.ring ∨ other = event := by
  rw [LogStore.pushRing, List.mem_append, List.mem_singleton] at hmem
  refine hmem.imp_left fun hkept => ?_
  split at hkept
  next => exact List.mem_of_mem_drop hkept
  next => exact hkept

/-- What a step of a push does to the numbered events. -/
theorem numberedEvents_step (hsteps : store.Steps event next sent) :
    (∃ fresh, event = .number fresh ∧ sent = none ∧ next.seq = store.seq + 1 ∧
        next.ring = store.ring ∧
        numberedEvents next = numberedEvents store ++ [{ fresh with seq := store.seq + 1 }]) ∨
      ((∀ fresh, event ≠ .number fresh) ∧ next.seq = store.seq ∧
        numberedEvents next = numberedEvents store ∧
        (∀ other ∈ next.ring, other ∈ store.ring ∨ other ∈ numberedEvents store) ∧
        ∀ heard ∈ sent, heard ∈ numberedEvents store) := by
  cases hsteps with
  | number fresh => exact .inl ⟨fresh, rfl, rfl, rfl, rfl, List.map_append⟩
  | append hget =>
      have hmem := List.mem_map_of_mem (f := Push.event) (List.mem_of_getElem? hget)
      refine .inr ⟨fun _ hnumber => (by cases hnumber), rfl, numberedEvents_set hget rfl, ?_,
        fun _ hheard => (by cases hheard)⟩
      intro other hother
      rcases mem_pushRing hother with hold | rfl
      · exact .inl hold
      · exact .inr hmem
  | send hget =>
      have hmem := List.mem_map_of_mem (f := Push.event) (List.mem_of_getElem? hget)
      refine .inr ⟨fun _ hnumber => (by cases hnumber), rfl, numberedEvents_set hget rfl,
        fun _ hold => .inl hold, fun heard hheard => ?_⟩
      obtain rfl := Option.some.inj hheard
      exact hmem

theorem Counted.start (cap : Nat) : Counted (.new cap) where
  counted := rfl
  numbered _ _ hget := by cases hget
  ring _ hmem := by cases hmem

/-- A step of a push numbers an event at most, and broadcasts one that has its number. -/
theorem Counted.step (hcounted : Counted store) (hsteps : store.Steps event next sent) :
    Counted next ∧ (∀ known ∈ numberedEvents store, known ∈ numberedEvents next) ∧
      ∀ heard ∈ sent, heard ∈ numberedEvents next := by
  rcases numberedEvents_step hsteps with
    ⟨fresh, -, rfl, hseq, hring, hevents⟩ | ⟨-, hseq, hevents, hring, hsent⟩
  · have hgrows : ∀ known ∈ numberedEvents store, known ∈ numberedEvents next :=
      fun known hmem => hevents ▸ List.mem_append_left _ hmem
    refine ⟨⟨?_, ?_, fun other hmem => hgrows other (hcounted.ring other (hring ▸ hmem))⟩, hgrows,
      fun _ hheard => (by cases hheard)⟩
    · rw [hevents, List.length_append, List.length_singleton, hseq, hcounted.counted]
    · intro i other hget
      rw [hevents, List.getElem?_append] at hget
      split at hget
      next => exact hcounted.numbered i other hget
      next hpast =>
        obtain ⟨hzero, rfl⟩ := List.getElem?_eq_some_iff.mp hget
        rw [List.length_singleton] at hzero
        rw [List.getElem_singleton]
        have hnumber := hcounted.counted
        simp only
        omega
  · refine ⟨⟨?_, ?_, ?_⟩, fun known hmem => hevents ▸ hmem, fun heard hheard =>
      hevents ▸ hsent heard hheard⟩
    · rw [hevents, hseq, hcounted.counted]
    · rw [hevents]
      exact hcounted.numbered
    · rw [hevents]
      exact fun other hmem => (hring other hmem).elim (hcounted.ring other) id

end Store

/-- A buffer holds the last lines of the records of what was taken. -/
structure Held (taken : List LogEvent) (buffer : LogBuffer) : Prop where
  capacity : buffer.capacity = maxLines
  lastSeq : buffer.lastSeq = peakKey LogEvent.seq 0 taken
  events : buffer.events = (records LogEvent.seq 0 taken).rtake maxLines

section Buffer

variable {taken : List LogEvent} {buffer : LogBuffer}

theorem Held.start : Held [] (.new maxLines) := ⟨rfl, rfl, (List.rtake_nil _).symm⟩

/-- The buffer takes one more event, and shows it if its number is a record. -/
theorem Held.push (hheld : Held taken buffer) {event : LogEvent} (hpos : 0 < event.seq) :
    Held (taken ++ [event]) (buffer.push event) := by
  have hseen : buffer.seen event = true ↔ ¬ peakKey LogEvent.seq 0 taken < event.seq := by
    rw [LogBuffer.seen, Bool.and_eq_true, bne_iff_ne, decide_eq_true_iff, hheld.lastSeq]
    omega
  rw [LogBuffer.push]
  split
  next hold =>
    have hbelow := hseen.mp hold
    refine ⟨hheld.capacity, ?_, ?_⟩
    · rw [peakKey_concat, max_eq_left (Nat.not_lt.mp hbelow), hheld.lastSeq]
    · rw [records_concat, if_neg hbelow, hheld.events]
  next hnew =>
    have habove : peakKey LogEvent.seq 0 taken < event.seq := by
      by_contra hbelow
      exact hnew (hseen.mpr hbelow)
    refine ⟨hheld.capacity, ?_, ?_⟩
    · rw [peakKey_concat, hheld.lastSeq]
    · rw [records_concat, if_pos habove, ← pushFull_rtake (by decide), ← hheld.events,
        ← hheld.capacity]
      rfl

/-- The replay takes the whole backlog. -/
theorem Held.replay {backlog : List LogEvent} (hpos : ∀ event ∈ backlog, 0 < event.seq) :
    Held backlog (backlog.foldl LogBuffer.push (.new maxLines)) := by
  induction backlog using List.reverseRecOn with
  | nil => exact Held.start
  | append_singleton past event ih =>
      rw [List.foldl_append, List.foldl_cons, List.foldl_nil]
      have hpast := ih fun other hmem => hpos other (List.mem_append_left _ hmem)
      exact hpast.push (hpos event (List.mem_append_right _ List.mem_cons_self))

end Buffer

/-- What a view has taken and what is queued for it are among the backlog and what was
broadcast to it, in that order, and it was told how many it missed. -/
structure Fed (store : LogStore) (taken : List LogEvent) (skipped : Nat) (viewer : Viewer) :
    Prop where
  known : ∀ event ∈ viewer.backlog ++ viewer.sent, event ∈ numberedEvents store
  order : (taken ++ viewer.queue).Sublist (viewer.backlog ++ viewer.sent)
  total : taken.length + viewer.queue.length + skipped =
    viewer.backlog.length + viewer.sent.length
  unread : viewer.buffer = none → taken = [] ∧ viewer.backlog = []
  held : ∀ buffer ∈ viewer.buffer, Held taken buffer

section View

variable {store next : LogStore} {taken : List LogEvent} {skipped : Nat} {viewer : Viewer}

theorem Fed.grow (hfed : Fed store taken skipped viewer)
    (hgrows : ∀ known ∈ numberedEvents store, known ∈ numberedEvents next) :
    Fed next taken skipped viewer :=
  { hfed with known := fun event hmem => hgrows event (hfed.known event hmem) }

/-- A broadcast is queued; when the queue is full its oldest is skipped. -/
theorem Fed.hear (hfed : Fed store taken skipped viewer) {event : LogEvent} {depth : Nat}
    (hdepth : 0 < depth) (hknown : event ∈ numberedEvents store) :
    Fed store taken (if viewer.queue.length = depth then skipped + 1 else skipped)
      (viewer.hear depth event) where
  known other hmem := by
    rw [Viewer.hear, ← List.append_assoc, List.mem_append, List.mem_singleton] at hmem
    rcases hmem with hold | rfl
    · exact hfed.known other hold
    · exact hknown
  order := by
    rw [Viewer.hear, ← List.append_assoc, ← List.append_assoc]
    refine List.Sublist.append ?_ (List.Sublist.refl _)
    refine List.Sublist.trans ?_ hfed.order
    rw [List.append_sublist_append_left]
    split
    next => exact List.drop_sublist _ _
    next => exact List.Sublist.refl _
  total := by
    have htotal := hfed.total
    simp only [Viewer.hear, List.length_append, List.length_singleton]
    split
    next hfull =>
      rw [List.length_drop]
      omega
    next => omega
  unread := hfed.unread
  held := hfed.held

theorem Fed.replay (hfed : Fed store taken skipped viewer) (hcounted : Counted store)
    (hunread : viewer.buffer = none) :
    Fed store store.ring skipped
      { viewer with
        buffer := some (store.ring.foldl LogBuffer.push (.new maxLines))
        backlog := store.ring } := by
  obtain ⟨rfl, hbacklog⟩ := hfed.unread hunread
  have horder := hfed.order
  have htotal := hfed.total
  rw [hbacklog, List.nil_append, List.nil_append] at horder
  rw [hbacklog] at htotal
  refine ⟨fun event hmem => ?_, (List.append_sublist_append_left _).mpr horder, ?_,
    fun hnone => (by cases hnone), fun buffer hbuffer => ?_⟩
  · rcases List.mem_append.mp hmem with hring | hsent
    · exact hcounted.ring event hring
    · exact hfed.known event (List.mem_append_right _ hsent)
  · simp only [List.length_nil] at htotal ⊢
    omega
  · obtain rfl := Option.some.inj hbuffer
    exact Held.replay fun event hmem => hcounted.seq_pos (hcounted.ring event hmem)

/-- The view takes the first event of its queue. -/
theorem Fed.receive (hfed : Fed store taken skipped viewer) (hcounted : Counted store)
    {buffer : LogBuffer} {event : LogEvent} {rest : List LogEvent}
    (hbuffer : viewer.buffer = some buffer) (hqueue : viewer.queue = event :: rest) :
    Fed store (taken ++ [event]) skipped
      { viewer with queue := rest, buffer := some (buffer.push event) } := by
  have horder := hfed.order
  have htotal := hfed.total
  rw [hqueue] at horder htotal
  have hknown : event ∈ viewer.backlog ++ viewer.sent :=
    horder.subset (List.mem_append_right _ List.mem_cons_self)
  refine ⟨hfed.known, ?_, ?_, fun hnone => (by cases hnone), fun after hafter => ?_⟩
  · rw [List.append_assoc]
    exact horder
  · rw [List.length_append, List.length_singleton]
    rw [List.length_cons] at htotal
    simp only
    omega
  · obtain rfl := Option.some.inj hafter
    exact (hfed.held buffer hbuffer).push (hcounted.seq_pos (hfed.known event hknown))

end View

/-! ## Runs -/

/-- The step of a push that an event takes. -/
def LoggingEvent.pushStep : LoggingEvent → Option PushStep
  | .log emission sinceEpoch => some (.number (onEvent emission sinceEpoch))
  | .append i => some (.append i)
  | .send i => some (.send i)
  | _ => none

namespace Logging

/-- The steps of the process, each with what it found. -/
inductive Steps (logging : Logging) : LoggingEvent → Logging → Prop
  | reload (level : Text) : Steps logging (.reload level)
      { logging with filter := levelFilter level }
  | filtered {emission : Emission} {sinceEpoch : Option Nat}
      (hfilter : logging.filter.enables emission.level = false) :
      Steps logging (.log emission sinceEpoch) logging
  | pushed {event : LoggingEvent} {pushStep : PushStep} {store : LogStore}
      {sent : Option LogEvent} (hpush : event.pushStep = some pushStep)
      (hfilter : ∀ emission sinceEpoch, event = .log emission sinceEpoch →
        logging.filter.enables emission.level = true)
      (hsteps : logging.system.store.Steps pushStep store sent) :
      Steps logging event
        { logging with
          system := { store, viewer := logging.system.heard sent }
          skipped := if sent.isSome && logging.lags then logging.skipped + 1
            else logging.skipped }
  | subscribed (hviewer : logging.system.viewer = none) : Steps logging .subscribe
      { logging with system := { logging.system with viewer := some {} } }
  | replayed {viewer : Viewer} (hviewer : logging.system.viewer = some viewer)
      (hbuffer : viewer.buffer = none) : Steps logging .replay
        { logging with
          system := { logging.system with
            viewer := some { viewer with
              buffer := some (logging.system.store.ring.foldl LogBuffer.push (.new maxLines))
              backlog := logging.system.store.ring } }
          taken := logging.system.store.ring }
  | received {viewer : Viewer} {buffer : LogBuffer} {event : LogEvent} {rest : List LogEvent}
      (hviewer : logging.system.viewer = some viewer) (hbuffer : viewer.buffer = some buffer)
      (hqueue : viewer.queue = event :: rest) : Steps logging .receive
        { logging with
          system := { logging.system with
            viewer := some { viewer with queue := rest, buffer := some (buffer.push event) } }
          taken := logging.taken ++ [event] }
  | pick {tab : Nat} (page : LogsPage) : Steps logging (.pick tab) { logging with page }
  | type {text : Text} (page : LogsPage) : Steps logging (.type text) { logging with page }
  | close : Steps logging .close
      { logging with
        system := { logging.system with viewer := none }, page := {}, taken := [], skipped := 0 }

variable {logging next : Logging} {event : LoggingEvent}

/-- A step of the store, with what the view hears of it. -/
theorem push_cases {system after : LogSystem} {event : PushStep}
    (hstep : system.step (.push event) = some after) :
    ∃ store sent, system.store.Steps event store sent ∧
      after = { store, viewer := system.heard sent } := by
  obtain ⟨⟨store, sent⟩, hstore, rfl⟩ := Option.map_eq_some_iff.mp hstep
  exact ⟨store, sent, LogStore.step_cases hstore, rfl⟩

theorem step_cases (hstep : logging.step event = some next) : logging.Steps event next := by
  cases event with
  | reload level => exact Option.some.inj hstep ▸ .reload level
  | log emission sinceEpoch =>
      simp only [Logging.step] at hstep
      split at hstep
      next hfilter =>
        obtain ⟨system, hsystem, rfl⟩ := Option.map_eq_some_iff.mp hstep
        obtain ⟨store, sent, hsteps, rfl⟩ := push_cases hsystem
        have hquiet : sent = none := by
          cases hsteps
          rfl
        subst hquiet
        refine .pushed rfl (fun _ _ hlog => ?_) hsteps
        obtain ⟨rfl, -⟩ := LoggingEvent.log.inj hlog
        exact hfilter
      next hfilter => exact Option.some.inj hstep ▸ .filtered (Bool.eq_false_iff.mpr hfilter)
  | append i =>
      obtain ⟨system, hsystem, rfl⟩ := Option.map_eq_some_iff.mp hstep
      obtain ⟨store, sent, hsteps, rfl⟩ := push_cases hsystem
      have hquiet : sent = none := by
        cases hsteps
        rfl
      subst hquiet
      exact .pushed rfl (fun _ _ hlog => (by cases hlog)) hsteps
  | send i =>
      obtain ⟨system, hsystem, rfl⟩ := Option.map_eq_some_iff.mp hstep
      obtain ⟨store, sent, hsteps, rfl⟩ := push_cases hsystem
      obtain ⟨heard, hheard⟩ : ∃ heard, sent = some heard := by
        cases hsteps
        exact ⟨_, rfl⟩
      subst hheard
      exact .pushed rfl (fun _ _ hlog => (by cases hlog)) hsteps
  | subscribe =>
      obtain ⟨system, hsystem, rfl⟩ := Option.map_eq_some_iff.mp hstep
      simp only [LogSystem.step] at hsystem
      split at hsystem
      next hviewer => exact Option.some.inj hsystem ▸ .subscribed hviewer
      next => cases hsystem
  | replay =>
      obtain ⟨system, hsystem, rfl⟩ := Option.map_eq_some_iff.mp hstep
      obtain ⟨after, hreplay, rfl⟩ := Option.map_eq_some_iff.mp hsystem
      obtain ⟨viewer, hviewer, hreplay⟩ := Option.bind_eq_some_iff.mp hreplay
      unfold Viewer.replay at hreplay
      split at hreplay
      next hbuffer => exact Option.some.inj hreplay ▸ .replayed hviewer hbuffer
      next => cases hreplay
  | receive =>
      obtain ⟨system, hsystem, rfl⟩ := Option.map_eq_some_iff.mp hstep
      obtain ⟨after, hreceive, rfl⟩ := Option.map_eq_some_iff.mp hsystem
      obtain ⟨viewer, hviewer, hreceive⟩ := Option.bind_eq_some_iff.mp hreceive
      unfold Viewer.receive at hreceive
      split at hreceive
      next buffer event rest hbuffer hqueue =>
        have hqueued : logging.queued.take 1 = [event] := by
          rw [queued, hviewer, Option.map_some, Option.getD_some, hqueue]
          rfl
        rw [hqueued]
        exact Option.some.inj hreceive ▸ .received hviewer hbuffer hqueue
      next => cases hreceive
  | pick tab =>
      simp only [Logging.step] at hstep
      split at hstep
      next => exact Option.some.inj hstep ▸ .pick _
      next => cases hstep
  | type text =>
      simp only [Logging.step] at hstep
      split at hstep
      next => exact Option.some.inj hstep ▸ .type _
      next => cases hstep
  | close =>
      simp only [Logging.step] at hstep
      split at hstep
      next => exact Option.some.inj hstep ▸ .close
      next => cases hstep

/-- The store's numbers are in order, and the view's history is that of what it took. -/
structure Coherent (logging : Logging) : Prop where
  store : Counted logging.system.store
  idle : logging.system.viewer = none → logging.taken = [] ∧ logging.skipped = 0
  viewer : ∀ viewer ∈ logging.system.viewer,
    Fed logging.system.store logging.taken logging.skipped viewer

theorem coherent_start (level : Text) (cap : Nat) : (start level cap).Coherent where
  store := .start cap
  idle _ := ⟨rfl, rfl⟩
  viewer _ hviewer := by cases hviewer

theorem Coherent.step (hcoherent : logging.Coherent) (hsteps : logging.Steps event next) :
    next.Coherent := by
  cases hsteps with
  | reload => exact ⟨hcoherent.store, hcoherent.idle, hcoherent.viewer⟩
  | filtered => exact hcoherent
  | @pushed _ _ store sent hpush hfilter hsteps =>
      obtain ⟨hcounted, hgrows, hsent⟩ := hcoherent.store.step hsteps
      refine ⟨hcounted, ?_, ?_⟩
      · intro hnone
        have hviewer : logging.system.viewer = none := by
          cases hviewer : logging.system.viewer with
          | none => rfl
          | some viewer => cases sent <;> simp [LogSystem.heard, hviewer] at hnone
        obtain ⟨htaken, hskipped⟩ := hcoherent.idle hviewer
        refine ⟨htaken, ?_⟩
        simp [lags, hviewer, hskipped]
      · intro viewer hviewer
        cases hbefore : logging.system.viewer with
        | none => simp [LogSystem.heard, hbefore] at hviewer
        | some before =>
            have hfed := (hcoherent.viewer before hbefore).grow hgrows
            cases sent with
            | none =>
                obtain rfl : before = viewer := by simpa [LogSystem.heard, hbefore] using hviewer
                exact hfed
            | some heard =>
                obtain rfl : before.hear logging.system.store.depth heard = viewer := by
                  simpa [LogSystem.heard, hbefore] using hviewer
                have hdepth : 0 < logging.system.store.depth :=
                  lt_of_lt_of_le (by decide) (Nat.le_max_left broadcastDepth _)
                have hheard := hfed.hear hdepth (hsent heard rfl)
                simpa [lags, hbefore] using hheard
  | subscribed hviewer =>
      obtain ⟨htaken, hskipped⟩ := hcoherent.idle hviewer
      refine ⟨hcoherent.store, fun hnone => (by cases hnone), fun viewer hfresh => ?_⟩
      obtain rfl := Option.some.inj hfresh
      rw [htaken, hskipped]
      exact ⟨fun _ hmem => (by cases hmem), List.Sublist.refl _, rfl, fun _ => ⟨rfl, rfl⟩,
        fun _ hbuffer => (by cases hbuffer)⟩
  | replayed hviewer hbuffer =>
      refine ⟨hcoherent.store, fun hnone => (by cases hnone), fun viewer hread => ?_⟩
      obtain rfl := Option.some.inj hread
      exact (hcoherent.viewer _ hviewer).replay hcoherent.store hbuffer
  | received hviewer hbuffer hqueue =>
      refine ⟨hcoherent.store, fun hnone => (by cases hnone), fun viewer hread => ?_⟩
      obtain rfl := Option.some.inj hread
      exact (hcoherent.viewer _ hviewer).receive hcoherent.store hbuffer hqueue
  | pick => exact ⟨hcoherent.store, hcoherent.idle, hcoherent.viewer⟩
  | type => exact ⟨hcoherent.store, hcoherent.idle, hcoherent.viewer⟩
  | close => exact ⟨hcoherent.store, fun _ => ⟨rfl, rfl⟩, fun _ hviewer => (by cases hviewer)⟩

/-! ## What was logged -/

/-- An event as it was before the store numbered it. -/
def unnumbered (event : LogEvent) : LogEvent := { event with seq := 0 }

def record (logged : Emission × Option Nat) : LogEvent := onEvent logged.1 logged.2

/-- A step numbers what the filter lets through, and nothing else. -/
theorem Steps.logged (hsteps : logging.Steps event next) (rest : List LoggingEvent) :
    ∃ fresh, emitted logging.filter (event :: rest) = fresh ++ emitted next.filter rest ∧
      (numberedEvents next.system.store).map unnumbered =
        (numberedEvents logging.system.store).map unnumbered ++ fresh.map record := by
  cases hsteps with
  | filtered hfilter =>
      refine ⟨[], ?_, (List.append_nil _).symm⟩
      rw [emitted, hfilter]
      rfl
  | @pushed _ _ _ _ hpush hfilter hsteps =>
      rcases numberedEvents_step hsteps with
        ⟨fresh, rfl, -, -, -, hevents⟩ | ⟨hother, -, hevents, -, -⟩
      · cases event with
        | log emission sinceEpoch =>
            obtain rfl := PushStep.number.inj (Option.some.inj hpush)
            refine ⟨[(emission, sinceEpoch)], ?_, ?_⟩
            · rw [emitted, if_pos (hfilter emission sinceEpoch rfl)]
              rfl
            · rw [hevents, List.map_append]
              rfl
        | append i => cases hpush
        | send i => cases hpush
        | _ => cases hpush
      · refine ⟨[], ?_, by rw [hevents]; exact (List.append_nil _).symm⟩
        cases event with
        | log emission sinceEpoch =>
            exact absurd (Option.some.inj hpush).symm (hother (onEvent emission sinceEpoch))
        | append i => rfl
        | send i => rfl
        | _ => cases hpush
  | _ => exact ⟨[], rfl, (List.append_nil _).symm⟩

/-- The numbered events are those logged, in the order they were logged. -/
theorem run_logged {events : List LoggingEvent} {final : Logging}
    (hrun : run step logging events = some final) :
    (numberedEvents final.system.store).map unnumbered =
      (numberedEvents logging.system.store).map unnumbered ++
        (emitted logging.filter events).map record := by
  induction events generalizing logging with
  | nil =>
      obtain rfl := Option.some.inj hrun
      exact (List.append_nil _).symm
  | cons event rest ih =>
      rw [run_cons] at hrun
      obtain ⟨next, hstep, hrest⟩ := Option.bind_eq_some_iff.mp hrun
      obtain ⟨fresh, hemitted, hnumbered⟩ := (step_cases hstep).logged rest
      rw [ih hrest, hnumbered, hemitted, List.map_append, List.append_assoc]

/-! ## What the page shows -/

/-- What the page shows after a schedule of events. -/
structure Shows (lower : Text → Text) (filter : LevelFilter) (events : List LoggingEvent)
    (final : Logging) : Prop where
  /-- A line is the record of the event that was logged in its place, and tells its fields. -/
  logged : ∀ line ∈ final.shown lower, ∃ i emission sinceEpoch,
    (emitted filter events)[i]? = some (emission, sinceEpoch) ∧
      line = { onEvent emission sinceEpoch with seq := i + 1 } ∧ Tells line emission.values
  /-- Lines are in the order of their numbers, so none is shown twice. -/
  rising : (final.shown lower).Pairwise fun first second => first.seq < second.seq
  bounded : (final.shown lower).length ≤ maxLines
  /-- They are lines that the view took and the page's filters let through. -/
  chosen : (final.shown lower).Sublist (final.taken.filter (final.page.passes lower))
  /-- Such a line is missing only if one with its number or a later one was taken before it, or
  if as many as the page holds were taken after it, each newer than all before. -/
  kept : ∀ before line after, final.taken = before ++ line :: after →
    final.page.passes lower line = true →
      line ∈ final.shown lower ∨ (∃ earlier ∈ before, line.seq ≤ earlier.seq) ∨
        maxLines ≤ (records LogEvent.seq line.seq after).length
  /-- What was taken and what is queued is the backlog and then what was broadcast since the
  view subscribed, but for what the view was told it had missed. -/
  fed : ∀ viewer ∈ final.system.viewer,
    (final.taken ++ viewer.queue).Sublist (viewer.backlog ++ viewer.sent) ∧
      (final.taken ++ viewer.queue).length + final.skipped =
        (viewer.backlog ++ viewer.sent).length

/-- An open page shows the last records of what was taken that pass its filters. -/
theorem Coherent.shown_eq (hcoherent : logging.Coherent) (lower : Text → Text) :
    logging.shown lower =
      ((records LogEvent.seq 0 logging.taken).rtake maxLines).filter
        (logging.page.passes lower) := by
  rw [shown]
  split
  next buffer hbuffer =>
    obtain ⟨viewer, hviewer, hheld⟩ := Option.bind_eq_some_iff.mp hbuffer
    rw [((hcoherent.viewer viewer hviewer).held buffer hheld).events]
  next hbuffer =>
    have htaken : logging.taken = [] := by
      cases hviewer : logging.system.viewer with
      | none => exact (hcoherent.idle hviewer).1
      | some viewer =>
          rw [buffer, hviewer, Option.bind_some] at hbuffer
          exact ((hcoherent.viewer viewer hviewer).unread hbuffer).1
    rw [htaken]
    rfl

theorem Coherent.taken_numbered (hcoherent : logging.Coherent) {line : LogEvent}
    (htaken : line ∈ logging.taken) : line ∈ numberedEvents logging.system.store := by
  cases hviewer : logging.system.viewer with
  | none =>
      rw [(hcoherent.idle hviewer).1] at htaken
      cases htaken
  | some viewer =>
      have hfed := hcoherent.viewer viewer hviewer
      exact hfed.known line (hfed.order.subset (List.mem_append_left _ htaken))

/-- Whatever the order in which threads number, append and broadcast, whatever the ring evicts
and the receiver misses, and whatever is picked, searched, closed and opened meanwhile, the
page shows events that were logged, none twice and in order, and of what its view took it
leaves out only the overtaken and the oldest. -/
theorem page_shows (lower : Text → Text) {level : Text} {cap : Nat} {events : List LoggingEvent}
    {final : Logging} (hrun : run step (start level cap) events = some final) :
    final.Shows lower (levelFilter level) events := by
  have hcoherent : final.Coherent :=
    run_invariant Coherent (fun _ _ _ hinv hstep => hinv.step (step_cases hstep))
      (coherent_start level cap) hrun
  have hshown := hcoherent.shown_eq lower
  have hrecords : (records LogEvent.seq 0 final.taken).Sublist final.taken := records_sublist _ _
  have hlast := rtake_sublist maxLines (records LogEvent.seq 0 final.taken)
  have hchosen : (final.shown lower).Sublist (final.taken.filter (final.page.passes lower)) := by
    rw [hshown]
    exact (hlast.trans hrecords).filter _
  refine ⟨fun line hline => ?_, ?_, ?_, hchosen, fun before line after hsplit hpasses => ?_,
    fun viewer hviewer => ?_⟩
  · -- its number is its place among the numbered events, which are those logged
    have hnumbered := hcoherent.taken_numbered (List.mem_of_mem_filter (hchosen.subset hline))
    obtain ⟨i, hget⟩ := List.mem_iff_getElem?.mp hnumbered
    have hseq := hcoherent.store.numbered i line hget
    have hplace := congrArg (·[i]?) (run_logged hrun)
    simp only [List.getElem?_map, hget, Option.map_some] at hplace
    obtain ⟨⟨emission, sinceEpoch⟩, hemitted, hrecord⟩ := Option.map_eq_some_iff.mp (by
      rw [← List.getElem?_map]
      exact hplace.symm)
    have hline : line = { onEvent emission sinceEpoch with seq := i + 1 } := by
      have hsame : onEvent emission sinceEpoch = { line with seq := 0 } := hrecord
      rw [hsame, ← hseq]
    refine ⟨i, emission, sinceEpoch, hemitted, hline, ?_⟩
    rw [hline]
    exact (onEvent_tells emission sinceEpoch).numbered _
  · rw [hshown]
    exact (records_pairwise 0 final.taken).sublist (List.filter_sublist.trans hlast)
  · rw [hshown]
    refine (List.length_filter_le _ _).trans ?_
    rw [length_rtake]
    exact Nat.min_le_left _ _
  · by_cases hovertaken : ∃ earlier ∈ before, line.seq ≤ earlier.seq
    · exact .inr (.inl hovertaken)
    by_cases hdropped : maxLines ≤ (records LogEvent.seq line.seq after).length
    · exact .inr (.inr hdropped)
    refine .inl ?_
    have hmem : line ∈ final.taken := hsplit ▸ List.mem_append_right _ List.mem_cons_self
    have hpos := hcoherent.store.seq_pos (hcoherent.taken_numbered hmem)
    have habove : ∀ earlier ∈ before, earlier.seq < line.seq := fun earlier hearlier =>
      Nat.not_le.mp fun hle => hovertaken ⟨earlier, hearlier, hle⟩
    rw [hshown, hsplit, records_split hpos habove, List.mem_filter]
    exact ⟨mem_rtake_of_split (Nat.not_le.mp hdropped), hpasses⟩
  · have hfed := hcoherent.viewer viewer hviewer
    refine ⟨hfed.order, ?_⟩
    have htotal := hfed.total
    rw [List.length_append, List.length_append]
    exact htotal

/-- The warning overtakes the line before it on the way to the page, and is then looked for. -/
def searchedRun : List LoggingEvent :=
  [.log ⟨.debug, ['t'], [(messageField, .debug ['x'])]⟩ none, .subscribe, .replay,
    .log ⟨.info, ['t'], [(messageField, .debug "up".toList)]⟩ (some 5),
    .log ⟨.warn, ['t'], [("port".toList, .u64 3128), (messageField, .debug "busy".toList)]⟩
      (some 6),
    .append 1, .send 1, .append 0, .send 0, .receive, .receive, .pick 1, .type "PORT=3128 ".toList]

theorem page_shows_searchedRun :
    ∃ final, run step (start "info".toList 1) searchedRun = some final ∧
      (final.shown toAsciiLowercase).map (·.message) = ["busy".toList] ∧
      final.Shows toAsciiLowercase (levelFilter "info".toList) searchedRun := by
  have hruns : (run step (start "info".toList 1) searchedRun).map (fun final =>
      (final.shown toAsciiLowercase).map (·.message)) = some ["busy".toList] := by
    decide +kernel
  obtain ⟨final, hrun, hshown⟩ := Option.map_eq_some_iff.mp hruns
  exact ⟨final, hrun, hshown, page_shows toAsciiLowercase hrun⟩

end Logging

end Zicade.Ui
