import Mathlib.Order.Basic
import Zicade.Proxy.BookLaws

/-! # What snapshots show of a connection over time

A connection's progress is its state with its byte counts, ordered by how far it
has come. No step takes progress back, and every view is at most what its entry
has reached, so later views are at least the earlier ones.
-/

namespace Zicade.Proxy

open Zicade.Foundation

namespace ConnectionState

/-- Connecting, then open, then finished one way or the other. -/
def rank : ConnectionState → Nat
  | .connecting => 0
  | .open => 1
  | .closed | .failed _ => 2

/-- A state comes before those of a later rank; the two ends do not follow each other. -/
instance : PartialOrder ConnectionState where
  le earlier later := earlier = later ∨ earlier.rank < later.rank
  le_refl _ := .inl rfl
  le_trans first second third hfirst hsecond := by
    rcases hfirst with rfl | hfirst
    · exact hsecond
    · rcases hsecond with rfl | hsecond
      · exact .inr hfirst
      · exact .inr (hfirst.trans hsecond)
  le_antisymm first second hle hge := by
    rcases hle with heq | hlt
    · exact heq
    · rcases hge with heq | hgt
      · exact heq.symm
      · exact absurd (hlt.trans hgt) (Nat.lt_irrefl _)

theorem cases_end (state : ConnectionState) :
    state = .connecting ∨ state = .open ∨ state.rank = 2 := by
  cases state <;> simp [rank]

theorem rank_le (state : ConnectionState) : state.rank ≤ 2 := by
  cases state <;> simp [rank]

/-- Nothing follows an end. -/
theorem eq_of_le {last later : ConnectionState} (hlast : last.rank = 2) (hle : last ≤ later) :
    later = last := by
  rcases hle with heq | hlt
  · exact heq.symm
  · have hbound := later.rank_le
    omega

end ConnectionState

namespace Book

/-- How far a connection has come: its state, and the bytes each way. -/
abbrev Progress := ConnectionState × Nat × Nat

def Entry.progress (entry : Entry) : Progress := (entry.state, entry.up, entry.down)

def ConnectionSnapshot.progress (view : ConnectionSnapshot) : Progress :=
  (view.state, view.bytesUp, view.bytesDown)

namespace Entry

theorem isFailed_eq_true {entry : Entry} :
    entry.isFailed = true ↔ ∃ reason, entry.state = .failed reason := by
  unfold isFailed
  cases entry.state <;> simp

theorem progress_le_iff {old new : Entry} :
    old.progress ≤ new.progress ↔
      old.state ≤ new.state ∧ old.up ≤ new.up ∧ old.down ≤ new.down := Iff.rfl

theorem WorksTo.progress_le {old new : Entry} (hworks : old.WorksTo new) :
    old.progress ≤ new.progress := by
  refine progress_le_iff.mpr ⟨?_, hworks.up, hworks.down⟩
  rcases hworks.state with hsame | ⟨hold, hnew⟩
  · exact .inl hsame.symm
  · rw [hold, hnew]
    exact .inr Nat.zero_lt_one

theorem WorksTo.isFailed_eq {old new : Entry} (hworks : old.WorksTo new) :
    new.isFailed = old.isFailed := by
  unfold isFailed
  rcases hworks.state with hsame | ⟨hold, hnew⟩
  · rw [hsame]
  · rw [hold, hnew]

/-- What an entry comes to at its close. -/
theorem markClosed_cases (entry : Entry) :
    (entry.isFailed = true ∧ entry.markClosed = entry) ∨
      (entry.isFailed = false ∧ entry.markClosed = { entry with state := .closed }) := by
  unfold markClosed
  cases entry.isFailed with
  | true => exact .inl ⟨rfl, rfl⟩
  | false => exact .inr ⟨rfl, rfl⟩

theorem markClosed_isFailed (entry : Entry) : entry.markClosed.isFailed = entry.isFailed := by
  rcases entry.markClosed_cases with ⟨-, hsame⟩ | ⟨hgoing, hclosed⟩
  · rw [hsame]
  · rw [hclosed, hgoing]
    rfl

theorem markClosed_failed (entry : Entry) : entry.markClosed.failed = entry.failed := by
  rcases entry.markClosed_cases with ⟨-, hsame⟩ | ⟨-, hclosed⟩
  · rw [hsame]
  · rw [hclosed]

theorem markClosed_rank (entry : Entry) : entry.markClosed.state.rank = 2 := by
  rcases entry.markClosed_cases with ⟨hfailed, hsame⟩ | ⟨-, hclosed⟩
  · obtain ⟨reason, hstate⟩ := isFailed_eq_true.mp hfailed
    rw [hsame, hstate]
    rfl
  · rw [hclosed]
    rfl

theorem eq_closed {entry : Entry} (hfailed : entry.isFailed = false)
    (hend : entry.state.rank = 2) : entry.state = .closed := by
  unfold isFailed at hfailed
  cases hstate : entry.state with
  | connecting => simp [hstate, ConnectionState.rank] at hend
  | «open» => simp [hstate, ConnectionState.rank] at hend
  | closed => rfl
  | failed reason => simp [hstate] at hfailed

/-- An entry that has neither failed nor been closed is short of its end. -/
theorem rank_lt {entry : Entry} (hfailed : entry.isFailed = false)
    (hclosed : entry.state ≠ .closed) : entry.state.rank < 2 := by
  unfold isFailed at hfailed
  cases hstate : entry.state with
  | connecting => decide
  | «open» => decide
  | closed => exact absurd hstate hclosed
  | failed reason => simp [hstate] at hfailed

theorem progress_le_markClosed (entry : Entry) (hclosed : entry.state ≠ .closed) :
    entry.progress ≤ entry.markClosed.progress := by
  rcases entry.markClosed_cases with ⟨-, hsame⟩ | ⟨hfailed, hmarked⟩
  · rw [hsame]
  · rw [hmarked]
    exact progress_le_iff.mpr ⟨.inr (rank_lt hfailed hclosed), le_rfl, le_rfl⟩

end Entry

/-- The reason an event reports, when it is a first step of `fail`. -/
def ConnStep.reason : ConnStep → Option String
  | .fail reason => some reason
  | _ => none

theorem ConnStep.reason_eq_some {event : ConnStep} {reason : String} :
    event.reason = some reason ↔ event = .fail reason := by
  cases event <;> simp [ConnStep.reason]

/-- The reason a failing call carries. -/
def Op.reason : Op → Option String
  | .failCount reason | .failState reason => some reason
  | _ => none

/-- A failing call that has counted its failure. -/
def Op.isCounted : Op → Bool
  | .failState _ => true
  | _ => false

/-- A handle exists. -/
def Life.isLive : Life → Bool
  | .live _ => true
  | _ => false

/-- The close has marked the entry. -/
def Life.isOver : Life → Bool
  | .marked | .copied _ | .moved => true
  | _ => false

theorem Life.isLive_of_isOver {life : Life} (hover : life.isOver = true) :
    life.isLive = false := by
  cases life <;> first | rfl | cases hover

namespace Conn

/-- How far the one failing call of a connection has come, and its reason. -/
inductive Reporting (conn : Conn) : Option String → Prop
  | fresh (hflag : conn.entry.failed = false) (hops : conn.ops.filter Op.isFailing = [])
      (hstate : conn.entry.isFailed = false) : Reporting conn none
  | claimed {reason : String} (hflag : conn.entry.failed = true)
      (hops : conn.ops.filter Op.isFailing = [.failCount reason])
      (hstate : conn.entry.isFailed = false) : Reporting conn (some reason)
  | counted {reason : String} (hflag : conn.entry.failed = true)
      (hops : conn.ops.filter Op.isFailing = [.failState reason])
      (hstate : conn.entry.isFailed = false) : Reporting conn (some reason)
  | recorded {reason : String} (hflag : conn.entry.failed = true)
      (hops : conn.ops.filter Op.isFailing = [])
      (hstate : conn.entry.state = .failed reason) : Reporting conn (some reason)

/-- What a connection has added to the count of failures. -/
def failures (conn : Conn) : Nat :=
  (conn.ops.filter Op.isFailing).countP Op.isCounted + conn.entry.isFailed.toNat

/-- What the stage of its life says of a connection. -/
structure Staged (conn : Conn) : Prop where
  idle : conn.life.isLive = false → conn.ops = []
  going : conn.life.isOver = false → conn.entry.state ≠ .closed
  ended : conn.life.isOver = true → conn.entry.state.rank = 2
  copied : ∀ finished, conn.life = .copied finished → finished.progress = conn.entry.progress

theorem Staged.unfinished {conn : Conn} (hstaged : conn.Staged)
    (hlife : conn.life.isOver = false) (hfailed : conn.entry.isFailed = false) :
    conn.entry.state.rank < 2 :=
  Entry.rank_lt hfailed (hstaged.going hlife)

/-- A failing call under way is the only one, and the state does not say so yet. -/
theorem Reporting.underWay {conn : Conn} {reported : Option String} {op : Op}
    (hreporting : conn.Reporting reported) (hmem : op ∈ conn.ops) (hfailing : op.isFailing = true) :
    conn.entry.failed = true ∧ conn.ops.filter Op.isFailing = [op] ∧
      conn.entry.isFailed = false ∧ reported = op.reason := by
  have hfilter : op ∈ conn.ops.filter Op.isFailing := List.mem_filter.mpr ⟨hmem, hfailing⟩
  cases hreporting with
  | fresh hflag hops hstate => cases hops ▸ hfilter
  | claimed hflag hops hstate =>
      obtain rfl := List.mem_singleton.mp (hops ▸ hfilter)
      exact ⟨hflag, hops, hstate, rfl⟩
  | counted hflag hops hstate =>
      obtain rfl := List.mem_singleton.mp (hops ▸ hfilter)
      exact ⟨hflag, hops, hstate, rfl⟩
  | recorded hflag hops hstate => cases hops ▸ hfilter

/-- Once the flag is set there is a reason. -/
theorem Reporting.isSome {conn : Conn} {reported : Option String}
    (hreporting : conn.Reporting reported) (hflag : conn.entry.failed = true) :
    ∃ reason, reported = some reason := by
  cases hreporting with
  | fresh hfresh hops hstate => simp [hfresh] at hflag
  | claimed hflag hops hstate => exact ⟨_, rfl⟩
  | counted hflag hops hstate => exact ⟨_, rfl⟩
  | recorded hflag hops hstate => exact ⟨_, rfl⟩

/-- Progress is never taken back. -/
theorem Steps.progress_le {conn after : Conn} {now : Nat} {event : ConnStep} {added : Added}
    {reported : Option String} (hsteps : conn.Steps now event after added)
    (hstaged : conn.Staged) (hreporting : conn.Reporting reported) :
    conn.entry.progress ≤ after.entry.progress := by
  cases hsteps with
  | work hlife hentry hops hadded hevent => exact hentry.progress_le
  | record hlife hop =>
      obtain ⟨-, -, hstate, -⟩ := hreporting.underWay (List.mem_of_getElem? hop) rfl
      have hrank := hstaged.unfinished (by simp [hlife, Life.isOver]) hstate
      exact Entry.progress_le_iff.mpr ⟨.inr hrank, le_rfl, le_rfl⟩
  | mark hlife => exact conn.entry.progress_le_markClosed (hstaged.going (by rw [hlife]; rfl))
  | count hlife => exact le_rfl
  | handles others' hlife hevent => exact le_rfl
  | release hlife hidle => exact le_rfl
  | claim reason hlife hfresh => exact le_rfl
  | counted hlife hop => exact le_rfl
  | copy hlife => exact le_rfl

/-- What becomes of the failing calls when the only one moves on or is over. -/
theorem filter_of_single {ops : List Op} {i : Nat} {op : Op} (hget : ops[i]? = some op)
    (hfailing : op.isFailing = true) (hsingle : ops.filter Op.isFailing = [op]) :
    (ops.eraseIdx i).filter Op.isFailing = [] ∧
      ∀ after, after.isFailing = true → (ops.set i after).filter Op.isFailing = [after] := by
  obtain ⟨front, back, hops, herase, hset⟩ := exists_split hget
  rw [hops, List.filter_append, List.filter_cons_of_pos hfailing] at hsingle
  obtain ⟨hfront, hback⟩ : front.filter Op.isFailing = [] ∧ back.filter Op.isFailing = [] := by
    cases hcases : front.filter Op.isFailing with
    | nil => simpa [hcases] using hsingle
    | cons first rest => simp [hcases] at hsingle
  refine ⟨by rw [herase, List.filter_append, hfront, hback, List.nil_append], ?_⟩
  intro after hafter
  rw [hset, List.filter_append, List.filter_cons_of_pos hafter, hfront, hback, List.nil_append]

/-- What a report has come to depends on the flag, the failing calls and whether
the state says so. -/
theorem Reporting.congr {conn after : Conn} {reported : Option String}
    (hreporting : conn.Reporting reported) (hflag : after.entry.failed = conn.entry.failed)
    (hops : after.ops.filter Op.isFailing = conn.ops.filter Op.isFailing)
    (hstate : after.entry.isFailed = conn.entry.isFailed)
    (hreason : conn.entry.isFailed = true → after.entry.state = conn.entry.state) :
    after.Reporting reported := by
  cases hreporting with
  | fresh hflag' hops' hstate' =>
      exact .fresh (hflag.trans hflag') (hops.trans hops') (hstate.trans hstate')
  | claimed hflag' hops' hstate' =>
      exact .claimed (hflag.trans hflag') (hops.trans hops') (hstate.trans hstate')
  | counted hflag' hops' hstate' =>
      exact .counted (hflag.trans hflag') (hops.trans hops') (hstate.trans hstate')
  | recorded hflag' hops' hstate' =>
      have hsame := hreason (Entry.isFailed_eq_true.mpr ⟨_, hstate'⟩)
      exact .recorded (hflag.trans hflag') (hops.trans hops') (hsame.trans hstate')

/-- The reason of the first failing call stays the reason. -/
theorem Steps.reporting {conn after : Conn} {now : Nat} {event : ConnStep} {added : Added}
    {reported : Option String} (hsteps : conn.Steps now event after added)
    (hreporting : conn.Reporting reported) : after.Reporting (reported.or event.reason) := by
  cases hsteps with
  | count hlife => exact Option.or_none ▸ hreporting.congr rfl rfl rfl fun _ => rfl
  | handles others' hlife hevent =>
      have hnone : event.reason = none := by rcases hevent with rfl | rfl <;> rfl
      rw [hnone, Option.or_none]
      exact hreporting.congr rfl rfl rfl fun _ => rfl
  | release hlife hidle => exact Option.or_none ▸ hreporting.congr rfl rfl rfl fun _ => rfl
  | work hlife hentry hops hadded hevent =>
      have hsame : reported.or event.reason = reported := by
        cases hcases : event.reason with
        | none => exact Option.or_none
        | some reason =>
            -- a failure reported again is not the first
            have hflag := hevent.2 reason (ConnStep.reason_eq_some.mp hcases)
            obtain ⟨first, rfl⟩ := hreporting.isSome hflag
            rfl
      rw [hsame]
      refine hreporting.congr hentry.failed hops hentry.isFailed_eq fun hfailed => ?_
      obtain ⟨reason, hstate⟩ := Entry.isFailed_eq_true.mp hfailed
      exact hentry.state.resolve_right fun hmoved => by simp [hstate] at hmoved
  | claim reason hlife hfresh =>
      cases hreporting with
      | fresh hflag hops hstate =>
          refine .claimed rfl ?_ hstate
          rw [List.filter_append, hops]
          rfl
      | claimed hflag hops hstate => simp [hflag] at hfresh
      | counted hflag hops hstate => simp [hflag] at hfresh
      | recorded hflag hops hstate => simp [hflag] at hfresh
  | counted hlife hop =>
      obtain ⟨hflag, hops, hstate, rfl⟩ := hreporting.underWay (List.mem_of_getElem? hop) rfl
      exact .counted hflag ((filter_of_single hop rfl hops).2 _ rfl) hstate
  | record hlife hop =>
      obtain ⟨hflag, hops, hstate, rfl⟩ := hreporting.underWay (List.mem_of_getElem? hop) rfl
      exact .recorded hflag (filter_of_single hop rfl hops).1 rfl
  | mark hlife =>
      rw [show ConnStep.reason .mark = none from rfl, Option.or_none]
      refine hreporting.congr conn.entry.markClosed_failed rfl conn.entry.markClosed_isFailed ?_
      intro hfailed
      rcases conn.entry.markClosed_cases with ⟨-, hsame⟩ | ⟨hgoing, -⟩
      · exact congrArg Entry.state hsame
      · simp [hgoing] at hfailed
  | copy hlife => exact Option.or_none ▸ hreporting.congr rfl rfl rfl fun _ => rfl

/-- A connection adds to the count of failures what its steps count. -/
theorem Steps.failures {conn after : Conn} {now : Nat} {event : ConnStep} {added : Added}
    {reported : Option String} (hsteps : conn.Steps now event after added)
    (hreporting : conn.Reporting reported) :
    after.failures = conn.failures + added.failed := by
  unfold Conn.failures
  cases hsteps with
  | count hlife => rfl
  | handles others' hlife hevent => rfl
  | release hlife hidle => rfl
  | work hlife hentry hops hadded hevent => rw [hops, hentry.isFailed_eq, hadded.2, Nat.add_zero]
  | claim reason hlife hfresh =>
      rw [List.filter_append, List.countP_append]
      rfl
  | counted hlife hop =>
      obtain ⟨-, hops, -, -⟩ := hreporting.underWay (List.mem_of_getElem? hop) rfl
      rw [hops, (filter_of_single hop rfl hops).2 _ rfl]
      change 1 + conn.entry.isFailed.toNat = 0 + conn.entry.isFailed.toNat + 1
      omega
  | record hlife hop =>
      obtain ⟨-, hops, hstate, -⟩ := hreporting.underWay (List.mem_of_getElem? hop) rfl
      rw [hops, (filter_of_single hop rfl hops).1, hstate]
      rfl
  | mark hlife => rw [conn.entry.markClosed_isFailed, Nat.add_zero]
  | copy hlife => rfl

theorem staged_of_live {conn : Conn} {others : Nat} (hlife : conn.life = .live others)
    (hstate : conn.entry.state ≠ .closed) : conn.Staged where
  idle hidle := by simp [hlife, Life.isLive] at hidle
  going _ := hstate
  ended hover := by simp [hlife, Life.isOver] at hover
  copied finished hcopied := by simp [hlife] at hcopied

theorem Steps.staged {conn after : Conn} {now : Nat} {event : ConnStep} {added : Added}
    (hsteps : conn.Steps now event after added) (hstaged : conn.Staged) : after.Staged := by
  cases hsteps with
  | count hlife => exact staged_of_live rfl (hstaged.going (by rw [hlife]; rfl))
  | handles others' hlife hevent => exact staged_of_live rfl (hstaged.going (by rw [hlife]; rfl))
  | release hlife hidle =>
      exact ⟨fun _ => hidle, fun _ => hstaged.going (by rw [hlife]; rfl), nofun, nofun⟩
  | work hlife hentry hops hadded hevent =>
      have hgoing := hstaged.going (by rw [hlife]; rfl)
      refine staged_of_live hlife ?_
      rcases hentry.state with hsame | ⟨-, hopen⟩
      · exact hsame ▸ hgoing
      · exact fun hclosed => by cases hopen.symm.trans hclosed
  | claim reason hlife hfresh => exact staged_of_live hlife (hstaged.going (by rw [hlife]; rfl))
  | counted hlife hop => exact staged_of_live hlife (hstaged.going (by rw [hlife]; rfl))
  | record hlife hop => exact staged_of_live hlife nofun
  | mark hlife =>
      have hidle := hstaged.idle (by rw [hlife]; rfl)
      exact ⟨fun _ => hidle, nofun, fun _ => conn.entry.markClosed_rank, nofun⟩
  | copy hlife =>
      have hidle := hstaged.idle (by rw [hlife]; rfl)
      have hended := hstaged.ended (by rw [hlife]; rfl)
      refine ⟨fun _ => hidle, nofun, fun _ => hended, fun finished hcopied => ?_⟩
      obtain rfl := Life.copied.inj hcopied
      rfl

end Conn

/-- The reason an event reports for the connection at an address. -/
def Event.reason (address : Nat) : Event → Option String
  | .own other event => if other = address then event.reason else none
  | _ => none

/-- The reason of the first call of `fail` on a connection. -/
def firstFailure (address : Nat) (events : List Event) : Option String :=
  events.findSome? (Event.reason address)

theorem firstFailure_concat (address : Nat) (past : List Event) (event : Event) :
    firstFailure address (past ++ [event]) =
      (firstFailure address past).or (event.reason address) := by
  rw [firstFailure, List.findSome?_append]
  congr 1
  rw [List.findSome?_cons]
  cases event.reason address <;> rfl

/-- How a connection ends. -/
def lastState : Option String → ConnectionState
  | some reason => .failed reason
  | none => .closed

/-- A view of a connection that has come at least as far. -/
def Reached (conns : List Conn) (view : ConnectionSnapshot) : Prop :=
  ∃ address conn, conns[address]? = some conn ∧ view.id = address + 1 ∧
    view.progress ≤ conn.entry.progress

/-- A record of a connection that goes no further. -/
def Settled (conns : List Conn) (record : ConnectionSnapshot) : Prop :=
  ∃ address conn, conns[address]? = some conn ∧ record.id = address + 1 ∧
    conn.life = .moved ∧ record.progress = conn.entry.progress

section Parties

variable {conns : List Conn} {address : Nat} {conn after fresh : Conn}
  {view : ConnectionSnapshot}

theorem Reached.set (hreached : Reached conns view) (hget : conns[address]? = some conn)
    (hle : conn.entry.progress ≤ after.entry.progress) :
    Reached (conns.set address after) view := by
  obtain ⟨j, party, hparty, hid, hview⟩ := hreached
  by_cases hsame : address = j
  · subst hsame
    obtain rfl := Option.some.inj (hget.symm.trans hparty)
    have hlt := (List.getElem?_eq_some_iff.mp hget).1
    exact ⟨address, after, List.getElem?_set_self hlt, hid, hview.trans hle⟩
  · exact ⟨j, party, by rwa [List.getElem?_set_ne hsame], hid, hview⟩

theorem Settled.set (hsettled : Settled conns view) (hget : conns[address]? = some conn)
    (hgoing : conn.life ≠ .moved) : Settled (conns.set address after) view := by
  obtain ⟨j, party, hparty, hid, hlife, hview⟩ := hsettled
  by_cases hsame : address = j
  · subst hsame
    obtain rfl := Option.some.inj (hget.symm.trans hparty)
    exact absurd hlife hgoing
  · exact ⟨j, party, by rwa [List.getElem?_set_ne hsame], hid, hlife, hview⟩

theorem Reached.concat (hreached : Reached conns view) : Reached (conns ++ [fresh]) view := by
  obtain ⟨j, party, hparty, hid, hview⟩ := hreached
  have hlt := (List.getElem?_eq_some_iff.mp hparty).1
  exact ⟨j, party, by rwa [List.getElem?_append_left hlt], hid, hview⟩

theorem Settled.concat (hsettled : Settled conns view) : Settled (conns ++ [fresh]) view := by
  obtain ⟨j, party, hparty, hid, hlife, hview⟩ := hsettled
  have hlt := (List.getElem?_eq_some_iff.mp hparty).1
  exact ⟨j, party, by rwa [List.getElem?_append_left hlt], hid, hlife, hview⟩

theorem Settled.reached (hsettled : Settled conns view) : Reached conns view := by
  obtain ⟨j, party, hparty, hid, -, hview⟩ := hsettled
  exact ⟨j, party, hparty, hid, hview.le⟩

/-- The connection that a view is of has come at least as far. -/
theorem Reached.progress_le (hreached : Reached conns view) (hget : conns[address]? = some conn)
    (hid : view.id = address + 1) : view.progress ≤ conn.entry.progress := by
  obtain ⟨j, party, hparty, hj, hle⟩ := hreached
  obtain rfl : j = address := Nat.add_right_cancel (hj.symm.trans hid)
  obtain rfl := Option.some.inj (hget.symm.trans hparty)
  exact hle

/-- A record is at least every view of its connection. -/
theorem Settled.view_le {record : ConnectionSnapshot} (hsettled : Settled conns record)
    (hreached : Reached conns view) (hsame : view.id = record.id) :
    view.progress ≤ record.progress := by
  obtain ⟨address, conn, hget, hid, -, hprogress⟩ := hsettled
  exact (hreached.progress_le hget (hsame.trans hid)).trans hprogress.ge

end Parties

namespace Tracker

/-- Every view of the snapshots returned and of the one under way, oldest first. -/
def views (tracker : Tracker) : List ConnectionSnapshot :=
  tracker.shown.flatten ++ (tracker.reader.map (·.taken)).getD []

/-- What the views so far have to do with the entries they are of. -/
structure Followed (past : List Event) (tracker : Tracker) : Prop where
  consistent : tracker.Consistent
  staged : ∀ conn ∈ tracker.conns, conn.Staged
  reporting : ∀ (address : Nat) (conn : Conn), tracker.conns[address]? = some conn →
    conn.Reporting (firstFailure address past)
  unborn : ∀ address, tracker.conns.length ≤ address → firstFailure address past = none
  failures : tracker.failedRequests = (tracker.conns.map Conn.failures).sum
  records : ∀ record ∈ tracker.moved, Settled tracker.conns record
  reached : ∀ view ∈ tracker.views, Reached tracker.conns view
  forward : tracker.views.Pairwise fun earlier later =>
    earlier.id = later.id → earlier.progress ≤ later.progress
  pending : ∀ reader up address rest, tracker.reader = some reader → reader.up = some up →
    reader.todo = address :: rest →
      (∃ conn, tracker.conns[address]? = some conn ∧ up ≤ conn.entry.up) ∧
        ∀ view ∈ tracker.views, view.id = address + 1 → view.bytesUp ≤ up

/-- What a later state has kept: connections only went forward, those whose record
is moved stayed, and later snapshots show nothing of them but the record. -/
structure Keeps (tracker later : Tracker) : Prop where
  conns : ∀ (address : Nat) (conn : Conn), tracker.conns[address]? = some conn →
    ∃ after, later.conns[address]? = some after ∧ conn.entry.progress ≤ after.entry.progress ∧
      (conn.life = .moved → after = conn)
  moved : ∀ record ∈ tracker.moved, record ∈ later.moved
  shown : ∃ shown, later.shown = tracker.shown ++ shown ∧ ∀ record ∈ tracker.moved,
    ∀ view ∈ shown.flatten, view.id = record.id → view = record

namespace Keeps

theorem refl (tracker : Tracker) : tracker.Keeps tracker where
  conns _ conn hget := ⟨conn, hget, le_rfl, fun _ => rfl⟩
  moved _ hrecord := hrecord
  shown := ⟨[], (List.append_nil _).symm, fun _ _ _ hmem => absurd hmem List.not_mem_nil⟩

theorem trans {first second third : Tracker} (hfirst : first.Keeps second)
    (hsecond : second.Keeps third) : first.Keeps third where
  conns address conn hget := by
    obtain ⟨between, hbetween, hle, hsame⟩ := hfirst.conns address conn hget
    obtain ⟨after, hafter, hon, hkeeps⟩ := hsecond.conns address between hbetween
    refine ⟨after, hafter, hle.trans hon, fun hmoved => ?_⟩
    obtain rfl := hsame hmoved
    exact hkeeps hmoved
  moved record hrecord := hsecond.moved record (hfirst.moved record hrecord)
  shown := by
    obtain ⟨shown, hshown, hviews⟩ := hfirst.shown
    obtain ⟨more, hmore, hlast⟩ := hsecond.shown
    refine ⟨shown ++ more, by rw [hmore, hshown, List.append_assoc], ?_⟩
    intro record hrecord view hmem
    rw [List.flatten_append] at hmem
    exact (List.mem_append.mp hmem).elim (hviews record hrecord view)
      (hlast record (hfirst.moved record hrecord) view)

end Keeps

namespace Followed

variable {past : List Event} {tracker next : Tracker} {event : Event}

theorem start : Followed [] {} where
  consistent := .start
  staged _ hmem := absurd hmem List.not_mem_nil
  reporting _ _ hget := by cases hget
  unborn _ _ := rfl
  failures := rfl
  records _ hmem := absurd hmem List.not_mem_nil
  reached _ hmem := absurd hmem List.not_mem_nil
  forward := .nil
  pending _ _ _ _ hreader := by cases hreader

/-- A step of the tracker outside its connections. -/
theorem of_same_conns (hfollowed : tracker.Followed past)
    (hcons : next.Consistent) (hquiet : ∀ address, event.reason address = none)
    (hconns : next.conns = tracker.conns) (hfailed : next.failedRequests = tracker.failedRequests)
    (hmoved : next.moved = tracker.moved)
    (hreached : ∀ view ∈ next.views, Reached tracker.conns view)
    (hforward : next.views.Pairwise fun earlier later =>
      earlier.id = later.id → earlier.progress ≤ later.progress)
    (hpending : ∀ reader up address rest, next.reader = some reader → reader.up = some up →
      reader.todo = address :: rest →
        (∃ conn, tracker.conns[address]? = some conn ∧ up ≤ conn.entry.up) ∧
          ∀ view ∈ next.views, view.id = address + 1 → view.bytesUp ≤ up) :
    next.Followed (past ++ [event]) where
  consistent := hcons
  staged := hconns ▸ hfollowed.staged
  reporting address conn hget := by
    rw [firstFailure_concat, hquiet, Option.or_none]
    exact hfollowed.reporting address conn (hconns ▸ hget)
  unborn address hpast := by
    rw [firstFailure_concat, hquiet, Option.or_none]
    exact hfollowed.unborn address (hconns ▸ hpast)
  failures := by rw [hfailed, hconns, hfollowed.failures]
  records := by
    rw [hmoved, hconns]
    exact hfollowed.records
  reached := hconns ▸ hreached
  forward := hforward
  pending := hconns ▸ hpending

/-- A step that moves one connection forward and leaves the views. -/
theorem of_set (hfollowed : tracker.Followed past) (hcons : next.Consistent) {address : Nat}
    {conn after : Conn} (hget : tracker.conns[address]? = some conn)
    (hconns : next.conns = tracker.conns.set address after) (hstaged : after.Staged)
    (hreporting : after.Reporting ((firstFailure address past).or (event.reason address)))
    (hquiet : ∀ other, other ≠ address → event.reason other = none)
    (hfailed : next.failedRequests + conn.failures = tracker.failedRequests + after.failures)
    (hle : conn.entry.progress ≤ after.entry.progress)
    (hrecords : ∀ record ∈ next.moved, Settled next.conns record)
    (hreader : next.reader = tracker.reader) (hshown : next.shown = tracker.shown) :
    next.Followed (past ++ [event]) := by
  have hviews : next.views = tracker.views := by rw [views, views, hreader, hshown]
  refine
    { consistent := hcons, staged := ?_, reporting := ?_, unborn := ?_, failures := ?_
      records := hrecords, reached := ?_, forward := hviews ▸ hfollowed.forward, pending := ?_ }
  · rw [hconns]
    exact forall_mem_set hfollowed.staged hstaged
  · intro j party hparty
    rw [firstFailure_concat]
    rw [hconns] at hparty
    rcases getElem?_set_cases hparty with ⟨rfl, rfl⟩ | ⟨hne, hold⟩
    · exact hreporting
    · rw [hquiet j hne, Option.or_none]
      exact hfollowed.reporting j party hold
  · intro j hpast
    rw [hconns, List.length_set] at hpast
    have hlt := (List.getElem?_eq_some_iff.mp hget).1
    rw [firstFailure_concat, hquiet j (by omega), Option.or_none]
    exact hfollowed.unborn j hpast
  · have hsum := sum_map_set Conn.failures hget after
    have htotal := hfollowed.failures
    rw [hconns]
    omega
  · intro view hmem
    rw [hconns]
    exact (hfollowed.reached view (hviews ▸ hmem)).set hget hle
  · intro reader up j rest hnext hup htodo
    obtain ⟨⟨party, hparty, hparty_up⟩, hseen⟩ :=
      hfollowed.pending reader up j rest (hreader ▸ hnext) hup htodo
    refine ⟨?_, hviews ▸ hseen⟩
    rw [hconns]
    by_cases hsame : address = j
    · subst hsame
      obtain rfl := Option.some.inj (hget.symm.trans hparty)
      have hlt := (List.getElem?_eq_some_iff.mp hget).1
      exact ⟨after, List.getElem?_set_self hlt, hparty_up.trans (Entry.progress_le_iff.mp hle).2.1⟩
    · exact ⟨party, by rwa [List.getElem?_set_ne hsame], hparty_up⟩

theorem take (hfollowed : tracker.Followed past) (kind : ConnectionKind) (target route : Text)
    (client : Option Text) (openedAt : Nat) :
    (tracker.take kind target route client openedAt).Followed
      (past ++ [.take kind target route client openedAt]) := by
  have hquiet (address : Nat) :
      firstFailure address (past ++ [.take kind target route client openedAt]) =
        firstFailure address past := by
    rw [firstFailure_concat]
    exact Option.or_none
  refine { hfollowed with
    consistent := hfollowed.consistent.take kind target route client openedAt
    staged := ?_, reporting := ?_, unborn := ?_, failures := ?_, records := ?_, reached := ?_
    pending := ?_ }
  · intro conn hmem
    rcases List.mem_append.mp hmem with hold | hnew
    · exact hfollowed.staged conn hold
    · rw [List.mem_singleton.mp hnew]
      exact ⟨fun _ => rfl, nofun, nofun, nofun⟩
  · intro address conn hget
    rw [hquiet]
    simp only [Tracker.take, List.getElem?_append] at hget
    split at hget
    next => exact hfollowed.reporting address conn hget
    next hpast =>
      obtain ⟨hzero, rfl⟩ := List.getElem?_eq_some_iff.mp hget
      rw [hfollowed.unborn address (Nat.not_lt.mp hpast), List.getElem_singleton]
      exact .fresh rfl rfl rfl
  · intro address hpast
    rw [Tracker.take, List.length_append] at hpast
    exact (hquiet address).trans (hfollowed.unborn address (Nat.le_of_add_right_le hpast))
  · rw [Tracker.take, hfollowed.failures, List.map_append, List.sum_append]
    rfl
  · exact fun record hmem => (hfollowed.records record hmem).concat
  · exact fun view hmem => (hfollowed.reached view hmem).concat
  · intro reader up address rest hreader hup htodo
    obtain ⟨⟨conn, hget, hle⟩, hseen⟩ := hfollowed.pending reader up address rest hreader hup htodo
    have hlt := (List.getElem?_eq_some_iff.mp hget).1
    exact ⟨⟨conn, by rwa [Tracker.take, List.getElem?_append_left hlt], hle⟩, hseen⟩

/-- The view that a reading adds is at least every earlier one of its connection. -/
theorem readRest (hfollowed : tracker.Followed past) {reader : Reader} {address up : Nat}
    {rest : List Nat} {conn : Conn} (hreader : tracker.reader = some reader)
    (htodo : reader.todo = address :: rest) (hup : reader.up = some up)
    (hget : tracker.conns[address]? = some conn) :
    Reached tracker.conns (conn.entry.snapshot up tracker.now) ∧
      ∀ view ∈ tracker.views, view.id = (conn.entry.snapshot up tracker.now).id →
        view.progress ≤ (conn.entry.snapshot up tracker.now).progress := by
  have hid := hfollowed.consistent.ids address conn hget
  obtain ⟨⟨party, hparty, hle⟩, hseen⟩ :=
    hfollowed.pending reader up address rest hreader hup htodo
  obtain rfl := Option.some.inj (hget.symm.trans hparty)
  refine ⟨⟨address, conn, hget, hid, le_rfl, hle, le_rfl⟩, fun view hmem hsame => ?_⟩
  have hview : view.id = address + 1 := hsame.trans hid
  obtain ⟨hstate, -, hdown⟩ := (hfollowed.reached view hmem).progress_le hget hview
  exact ⟨hstate, hseen view hmem hview, hdown⟩

theorem insert (hfollowed : tracker.Followed past) {address : Nat} {conn : Conn}
    (hcons : (tracker.insert address conn).Consistent)
    (hget : tracker.conns[address]? = some conn) (hlife : conn.life = .taken) :
    (tracker.insert address conn).Followed (past ++ [.insert address]) := by
  have hstaged := hfollowed.staged conn (List.mem_of_getElem? hget)
  refine hfollowed.of_set hcons hget rfl ?_ ?_ (fun _ _ => rfl) rfl le_rfl ?_ rfl rfl
  · exact ⟨fun _ => hstaged.idle (by rw [hlife]; rfl),
      fun _ => hstaged.going (by rw [hlife]; rfl), nofun, nofun⟩
  · exact Option.or_none ▸ (hfollowed.reporting address conn hget).congr rfl rfl rfl fun _ => rfl
  · exact fun record hmem => (hfollowed.records record hmem).set hget (by simp [hlife])

theorem own (hfollowed : tracker.Followed past) {address : Nat} {turn : ConnStep}
    {conn after : Conn} {added : Added} (hget : tracker.conns[address]? = some conn)
    (hown : conn.Steps tracker.now turn after added)
    (hcons : Consistent ({ tracker with conns := tracker.conns.set address after }.add added)) :
    Followed (past ++ [.own address turn])
      ({ tracker with conns := tracker.conns.set address after }.add added) := by
  have hstaged := hfollowed.staged conn (List.mem_of_getElem? hget)
  have hreporting := hfollowed.reporting address conn hget
  refine hfollowed.of_set hcons hget rfl (hown.staged hstaged) ?_ ?_ ?_
    (hown.progress_le hstaged hreporting) ?_ rfl rfl
  · rw [Event.reason, if_pos rfl]
    exact hown.reporting hreporting
  · exact fun other hne => if_neg (Ne.symm hne)
  · have hfailures := hown.failures hreporting
    change tracker.failedRequests + added.failed + conn.failures = _
    omega
  · exact fun record hmem => (hfollowed.records record hmem).set hget hown.not_moved

/-- The record that a move appends is of a connection that goes no further. -/
theorem move (hfollowed : tracker.Followed past) {address : Nat} {conn : Conn}
    {finished : ConnectionSnapshot} (hcons : (tracker.move address conn finished).Consistent)
    (hget : tracker.conns[address]? = some conn) (hlife : conn.life = .copied finished) :
    (tracker.move address conn finished).Followed (past ++ [.move address]) := by
  have hstaged := hfollowed.staged conn (List.mem_of_getElem? hget)
  refine hfollowed.of_set hcons hget rfl ?_ ?_ (fun _ _ => rfl) rfl le_rfl ?_ rfl rfl
  · exact ⟨fun _ => hstaged.idle (by rw [hlife]; rfl), nofun,
      fun _ => hstaged.ended (by rw [hlife]; rfl), nofun⟩
  · exact Option.or_none ▸ (hfollowed.reporting address conn hget).congr rfl rfl rfl fun _ => rfl
  · intro record hmem
    rcases List.mem_append.mp hmem with hold | hnew
    · exact (hfollowed.records record hold).set hget (by simp [hlife])
    · obtain rfl := List.mem_singleton.mp hnew
      have hid := hfollowed.consistent.ids address conn hget
      have hcopied := hfollowed.consistent.copied conn (List.mem_of_getElem? hget) _ hlife
      have hlt := (List.getElem?_eq_some_iff.mp hget).1
      exact ⟨address, _, List.getElem?_set_self hlt, hcopied.trans hid, rfl,
        hstaged.copied _ hlife⟩

/-- A step of a reading that shows nothing new. -/
theorem of_same_views (hfollowed : tracker.Followed past) (hcons : next.Consistent)
    (hquiet : ∀ address, event.reason address = none) (hconns : next.conns = tracker.conns)
    (hfailed : next.failedRequests = tracker.failedRequests) (hmoved : next.moved = tracker.moved)
    (hviews : next.views = tracker.views)
    (hpending : ∀ reader up address rest, next.reader = some reader → reader.up = some up →
      reader.todo = address :: rest → ∃ conn, tracker.conns[address]? = some conn ∧
        up = conn.entry.up) : next.Followed (past ++ [event]) := by
  refine hfollowed.of_same_conns hcons hquiet hconns hfailed hmoved (hviews ▸ hfollowed.reached)
    (hviews ▸ hfollowed.forward) ?_
  intro reader up address rest hreader hup htodo
  obtain ⟨conn, hget, rfl⟩ := hpending reader up address rest hreader hup htodo
  refine ⟨⟨conn, hget, le_rfl⟩, fun view hmem hid => ?_⟩
  exact ((hfollowed.reached view (hviews ▸ hmem)).progress_le hget hid).2.1

/-- A reading adds a view that is at least the earlier ones. -/
theorem addView (hfollowed : tracker.Followed past) {reader : Reader} {address up : Nat}
    {rest : List Nat} {conn : Conn} (hreader : tracker.reader = some reader)
    (htodo : reader.todo = address :: rest) (hup : reader.up = some up)
    (hget : tracker.conns[address]? = some conn)
    (hcons : Consistent { tracker with
      reader := some
        { todo := rest, taken := reader.taken ++ [conn.entry.snapshot up tracker.now] } })
    (hquiet : ∀ address, event.reason address = none) :
    Followed (past ++ [event]) { tracker with
      reader := some
        { todo := rest, taken := reader.taken ++ [conn.entry.snapshot up tracker.now] } } := by
  obtain ⟨hreached, hforward⟩ := hfollowed.readRest hreader htodo hup hget
  have hviews : views { tracker with
      reader := some
        { todo := rest, taken := reader.taken ++ [conn.entry.snapshot up tracker.now] } } =
      tracker.views ++ [conn.entry.snapshot up tracker.now] := by
    rw [views, views, hreader]
    exact (List.append_assoc _ _ _).symm
  refine hfollowed.of_same_conns hcons hquiet rfl rfl rfl ?_ ?_ ?_
  · intro view hmem
    rw [hviews] at hmem
    rcases List.mem_append.mp hmem with hold | hnew
    · exact hfollowed.reached view hold
    · exact List.mem_singleton.mp hnew ▸ hreached
  · rw [hviews, List.pairwise_append]
    refine ⟨hfollowed.forward, List.pairwise_singleton _ _, fun view hmem other hother => ?_⟩
    exact List.mem_singleton.mp hother ▸ hforward view hmem
  · intro after up' j others hafter hup'
    obtain rfl := Option.some.inj hafter
    cases hup'

/-- A snapshot ends with the history, whose records nothing overtakes. -/
theorem unlock (hfollowed : tracker.Followed past) {reader : Reader}
    (hreader : tracker.reader = some reader)
    (hcons : Consistent { tracker with
      reader := none, shown := tracker.shown ++ [reader.taken ++ tracker.closed.reverse] })
    (hquiet : ∀ address, event.reason address = none) :
    Followed (past ++ [event]) { tracker with
      reader := none, shown := tracker.shown ++ [reader.taken ++ tracker.closed.reverse] } := by
  have hviews : views { tracker with
      reader := none, shown := tracker.shown ++ [reader.taken ++ tracker.closed.reverse] } =
      tracker.views ++ tracker.closed.reverse := by
    rw [views, views, hreader, List.flatten_append, List.flatten_singleton]
    simp only [Option.map_none, Option.getD_none, List.append_nil, Option.map_some,
      Option.getD_some, List.append_assoc]
  have hrecords : ∀ record ∈ tracker.closed.reverse, Settled tracker.conns record := by
    intro record hmem
    rw [List.mem_reverse, hfollowed.consistent.history] at hmem
    exact hfollowed.records record (List.mem_of_mem_drop hmem)
  refine hfollowed.of_same_conns hcons hquiet rfl rfl rfl ?_ ?_ nofun
  · intro view hmem
    rw [hviews] at hmem
    rcases List.mem_append.mp hmem with hold | hrecord
    · exact hfollowed.reached view hold
    · exact (hrecords view hrecord).reached
  · rw [hviews, List.pairwise_append]
    refine ⟨hfollowed.forward, ?_, fun view hmem record hrecord hsame => ?_⟩
    · refine List.Pairwise.imp_of_mem ?_ (List.pairwise_of_forall fun _ _ => trivial)
      exact fun hfirst hsecond _ hsame =>
        (hrecords _ hsecond).view_le (hrecords _ hfirst).reached hsame
    · exact (hrecords record hrecord).view_le (hfollowed.reached view hmem) hsame

theorem step (hfollowed : tracker.Followed past) (hstep : tracker.step event = some next) :
    next.Followed (past ++ [event]) := by
  have hcons := hfollowed.consistent.step hstep
  cases step_cases hstep with
  | take kind target route client openedAt =>
      exact hfollowed.take kind target route client openedAt
  | insert hlock hget hlife => exact hfollowed.insert hcons hget hlife
  | own hget hown => exact hfollowed.own hget hown hcons
  | move hlock hget hlife => exact hfollowed.move hcons hget hlife
  | lock hlock =>
      refine hfollowed.of_same_views hcons (fun _ => rfl) rfl rfl rfl ?_ ?_
      · rw [views, views, hlock]
        rfl
      · intro reader up address rest hreader hup
        obtain rfl := Option.some.inj hreader
        cases hup
  | @readUp reader address rest conn hreader htodo hup hget =>
      refine hfollowed.of_same_views hcons (fun _ => rfl) rfl rfl rfl ?_ ?_
      · rw [views, views, hreader]
        rfl
      · intro after up j others hafter hup' htodo'
        obtain rfl := Option.some.inj hafter
        obtain rfl := Option.some.inj hup'
        obtain ⟨rfl, rfl⟩ := List.cons.inj (htodo.symm.trans htodo')
        exact ⟨conn, hget, rfl⟩
  | readRest hreader htodo hup hget =>
      exact hfollowed.addView hreader htodo hup hget hcons fun _ => rfl
  | unlock hreader htodo => exact hfollowed.unlock hreader hcons fun _ => rfl
  | tick elapsed =>
      exact hfollowed.of_same_conns hcons (fun _ => rfl) rfl rfl rfl hfollowed.reached
        hfollowed.forward hfollowed.pending

theorem of_run {events : List Event} {final : Tracker}
    (hrun : run Tracker.step {} events = some final) : final.Followed events :=
  run_history_invariant (fun past tracker => tracker.Followed past) .start
    (fun _ _ _ _ hfollowed hstep => hfollowed.step hstep) hrun

theorem conn_step (hfollowed : tracker.Followed past) (hstep : tracker.step event = some next)
    {address : Nat} {conn : Conn} (hget : tracker.conns[address]? = some conn) :
    ∃ after, next.conns[address]? = some after ∧ conn.entry.progress ≤ after.entry.progress ∧
      (conn.life = .moved → after = conn) := by
  have hkeep : ∃ after, tracker.conns[address]? = some after ∧
      conn.entry.progress ≤ after.entry.progress ∧ (conn.life = .moved → after = conn) :=
    ⟨conn, hget, le_rfl, fun _ => rfl⟩
  have hset {i : Nat} {before moved : Conn} (hbefore : tracker.conns[i]? = some before)
      (hgoing : before.life ≠ .moved) (hle : before.entry.progress ≤ moved.entry.progress) :
      ∃ after, (tracker.conns.set i moved)[address]? = some after ∧
        conn.entry.progress ≤ after.entry.progress ∧ (conn.life = .moved → after = conn) := by
    by_cases hsame : i = address
    · subst hsame
      obtain rfl := Option.some.inj (hbefore.symm.trans hget)
      have hlt := (List.getElem?_eq_some_iff.mp hget).1
      exact ⟨moved, List.getElem?_set_self hlt, hle, fun hover => absurd hover hgoing⟩
    · exact ⟨conn, by rwa [List.getElem?_set_ne hsame], le_rfl, fun _ => rfl⟩
  cases step_cases hstep with
  | take kind target route client openedAt =>
      have hlt := (List.getElem?_eq_some_iff.mp hget).1
      exact ⟨conn, by rwa [Tracker.take, List.getElem?_append_left hlt], le_rfl, fun _ => rfl⟩
  | insert hlock hbefore hlife => exact hset hbefore (by simp [hlife]) le_rfl
  | @own i own before after added hbefore hown =>
      exact hset hbefore hown.not_moved (hown.progress_le
        (hfollowed.staged before (List.mem_of_getElem? hbefore))
        (hfollowed.reporting i before hbefore))
  | move hlock hbefore hlife => exact hset hbefore (by simp [hlife]) le_rfl
  | lock hlock => exact hkeep
  | readUp hreader htodo hup hbefore => exact hkeep
  | readRest hreader htodo hup hbefore => exact hkeep
  | unlock hreader htodo => exact hkeep
  | tick elapsed => exact hkeep

theorem shown_step (hfollowed : tracker.Followed past) (hstep : tracker.step event = some next) :
    ∃ shown, next.shown = tracker.shown ++ shown ∧ ∀ record ∈ tracker.moved,
      ∀ view ∈ shown.flatten, view.id = record.id → view = record := by
  have hkeep : ∃ shown, tracker.shown = tracker.shown ++ shown ∧ ∀ record ∈ tracker.moved,
      ∀ view ∈ shown.flatten, view.id = record.id → view = record :=
    ⟨[], (List.append_nil _).symm, fun _ _ _ hmem => absurd hmem List.not_mem_nil⟩
  cases step_cases hstep with
  | take kind target route client openedAt => exact hkeep
  | insert hlock hget hlife => exact hkeep
  | own hget hown => exact hkeep
  | move hlock hget hlife => exact hkeep
  | lock hlock => exact hkeep
  | readUp hreader htodo hup hget => exact hkeep
  | readRest hreader htodo hup hget => exact hkeep
  | @unlock reader hreader htodo =>
      refine ⟨[reader.taken ++ tracker.closed.reverse], rfl, fun record hrecord view hmem hid => ?_⟩
      rw [List.flatten_singleton] at hmem
      rcases List.mem_append.mp hmem with htaken | hclosed
      · -- an open entry is not that of a moved record
        have hkey := List.mem_map_of_mem (f := (·.id)) htaken
        rw [hfollowed.consistent.taken_ids hreader htodo, List.mem_reverse,
          hfollowed.consistent.mem_keys] at hkey
        exact absurd (hid ▸ List.mem_map_of_mem hrecord) hkey.2
      · rw [List.mem_reverse, hfollowed.consistent.history] at hclosed
        exact List.inj_on_of_nodup_map hfollowed.consistent.movedOnce
          (List.mem_of_mem_drop hclosed) hrecord hid
  | tick elapsed => exact hkeep

theorem keeps_of_step (hfollowed : tracker.Followed past)
    (hstep : tracker.step event = some next) : tracker.Keeps next where
  conns _ _ hget := hfollowed.conn_step hstep hget
  moved _ hrecord := (step_cases hstep).moved hrecord
  shown := hfollowed.shown_step hstep

/-- Whatever is done after it, a tracker keeps what it had. -/
theorem keeps_of_run (hfollowed : tracker.Followed past) {rest : List Event} {later : Tracker}
    (hrun : run Tracker.step tracker rest = some later) : tracker.Keeps later := by
  refine (run_invariant (fun middle : Tracker => (∃ before, middle.Followed before) ∧
    tracker.Keeps middle) ?_ ⟨⟨past, hfollowed⟩, .refl tracker⟩ hrun).2
  rintro middle event next ⟨⟨before, hmiddle⟩, hkeeps⟩ hstep
  exact ⟨⟨_, hmiddle.step hstep⟩, hkeeps.trans (hmiddle.keeps_of_step hstep)⟩

/-- An end that was reached is the one the first failure decides. -/
theorem end_eq (hfollowed : tracker.Followed past) {address : Nat} {conn : Conn}
    (hget : tracker.conns[address]? = some conn) (hend : conn.entry.state.rank = 2) :
    conn.entry.state = lastState (firstFailure address past) := by
  have hstaged := hfollowed.staged conn (List.mem_of_getElem? hget)
  have hreporting := hfollowed.reporting address conn hget
  have hclosed (hfailed : conn.entry.isFailed = false) :
      conn.entry.state = .closed ∧ conn.ops = [] := by
    have hclosed := Entry.eq_closed hfailed hend
    cases hover : conn.life.isOver with
    | false => exact absurd hclosed (hstaged.going hover)
    | true => exact ⟨hclosed, hstaged.idle (Life.isLive_of_isOver hover)⟩
  generalize firstFailure address past = reported at hreporting ⊢
  cases hreporting with
  | fresh hflag hops hstate => exact (hclosed hstate).1
  | claimed hflag hops hstate =>
      rw [(hclosed hstate).2] at hops
      cases hops
  | counted hflag hops hstate =>
      rw [(hclosed hstate).2] at hops
      cases hops
  | recorded hflag hops hstate => exact hstate

/-- The views of a connection in the snapshots returned, oldest first. -/
theorem forward_shown (hfollowed : tracker.Followed past) (id : Nat) :
    ((tracker.shown.flatten.filter fun view => view.id = id).map (·.progress)).Pairwise
      (· ≤ ·) := by
  rw [List.pairwise_map]
  have hsub : (tracker.shown.flatten.filter fun view => view.id = id).Sublist tracker.views :=
    List.filter_sublist.trans (List.sublist_append_left _ _)
  refine (hfollowed.forward.sublist hsub).imp_of_mem fun hfirst hsecond hle => hle ?_
  simp only [List.mem_filter, decide_eq_true_eq] at hfirst hsecond
  rw [hfirst.2, hsecond.2]

/-- The last state a view may show is the one the first failure decides. -/
theorem shown_end (hfollowed : tracker.Followed past) {address : Nat} {view : ConnectionSnapshot}
    (hview : Reached tracker.conns view) (hid : view.id = address + 1)
    (hend : view.state.rank = 2) : view.state = lastState (firstFailure address past) := by
  obtain ⟨j, conn, hget, hj, hle⟩ := hview
  obtain rfl : j = address := Nat.add_right_cancel (hj.symm.trans hid)
  have hsame := ConnectionState.eq_of_le hend hle.1
  have hstate := hfollowed.end_eq hget ((congrArg ConnectionState.rank hsame).trans hend)
  exact hsame.symm.trans hstate

end Followed

/-- States that only go forward: connecting, then open, then one end. -/
theorem exists_replicate {states : List ConnectionState} {last : ConnectionState}
    (hforward : states.Pairwise (· ≤ ·)) (hlast : ∀ state ∈ states, state.rank = 2 → state = last) :
    ∃ connecting opened ended, states = List.replicate connecting .connecting ++
      (List.replicate opened .open ++ List.replicate ended last) := by
  induction states with
  | nil => exact ⟨0, 0, 0, rfl⟩
  | cons state rest ih =>
      obtain ⟨hle, hrest⟩ := List.pairwise_cons.mp hforward
      obtain ⟨connecting, opened, ended, rfl⟩ :=
        ih hrest fun other hmem => hlast other (List.mem_cons_of_mem _ hmem)
      have hnot (other : ConnectionState) (hbefore : other.rank < state.rank) :
          other ∉ List.replicate connecting .connecting ++
            (List.replicate opened .open ++ List.replicate ended last) := by
        intro hmem
        rcases hle other hmem with rfl | hafter <;> omega
      rcases state.cases_end with rfl | rfl | hend
      · exact ⟨connecting + 1, opened, ended, rfl⟩
      · cases connecting with
        | zero => exact ⟨0, opened + 1, ended, rfl⟩
        | succ n => exact absurd (by simp) (hnot .connecting Nat.zero_lt_one)
      · obtain rfl := hlast state List.mem_cons_self hend
        cases connecting with
        | zero =>
            cases opened with
            | zero => exact ⟨0, 0, ended + 1, rfl⟩
            | succ n => exact absurd (by simp) (hnot .open (by rw [hend]; decide))
        | succ n => exact absurd (by simp) (hnot .connecting (by rw [hend]; decide))

/-- Whatever the order of the steps: the states that snapshots show of a connection
are connecting, then open, then the end that its first failure decides; its byte
counts only grow; its record says what the entry says and neither changes nor is
contradicted; and with no call under way each failed connection is counted once. -/
theorem life_forward {events : List Event} {final : Tracker}
    (hrun : run Tracker.step {} events = some final) :
    (∀ (address : Nat) (conn : Conn), final.conns[address]? = some conn →
      let views := final.shown.flatten.filter fun view => view.id = address + 1
      (∃ connecting opened ended, views.map (·.state) = List.replicate connecting .connecting ++
        (List.replicate opened .open ++
          List.replicate ended (lastState (firstFailure address events)))) ∧
      (views.map (·.bytesUp)).Pairwise (· ≤ ·) ∧ (views.map (·.bytesDown)).Pairwise (· ≤ ·) ∧
      (∀ record ∈ final.moved, record.id = address + 1 →
        record.state = lastState (firstFailure address events) ∧
          record.bytesUp = conn.entry.up ∧ record.bytesDown = conn.entry.down ∧
          conn.life = .moved) ∧
      ∀ reason, conn.entry.state = .failed reason →
        firstFailure address events = some reason ∧
          ∀ rest later, run Tracker.step final rest = some later →
            ∃ after, later.conns[address]? = some after ∧ after.entry.state = .failed reason) ∧
    (∀ rest later, run Tracker.step final rest = some later → final.Keeps later) ∧
    ((∀ conn ∈ final.conns, conn.ops = []) →
      final.failedRequests = final.conns.countP fun conn => conn.entry.isFailed) := by
  have hfollowed := Followed.of_run hrun
  refine ⟨fun address conn hget => ?_, ?_, ?_⟩
  · have hforward := hfollowed.forward_shown (address + 1)
    rw [List.pairwise_map] at hforward
    refine ⟨exists_replicate ?_ ?_, ?_, ?_, ?_, ?_⟩
    · rw [List.pairwise_map]
      exact hforward.imp fun hle => hle.1
    · simp only [List.mem_map, List.mem_filter, decide_eq_true_eq]
      rintro state ⟨view, ⟨hmem, hid⟩, rfl⟩ hend
      exact hfollowed.shown_end (hfollowed.reached view (List.mem_append_left _ hmem)) hid hend
    · rw [List.pairwise_map]
      exact hforward.imp fun hle => hle.2.1
    · rw [List.pairwise_map]
      exact hforward.imp fun hle => hle.2.2
    · intro record hrecord hid
      obtain ⟨j, party, hparty, hj, hmoved, hprogress⟩ := hfollowed.records record hrecord
      obtain rfl : j = address := Nat.add_right_cancel (hj.symm.trans hid)
      obtain rfl := Option.some.inj (hget.symm.trans hparty)
      have hended := (hfollowed.staged conn (List.mem_of_getElem? hget)).ended (by rw [hmoved]; rfl)
      obtain ⟨hstate, hbytes⟩ := Prod.mk.inj hprogress
      obtain ⟨hup, hdown⟩ := Prod.mk.inj hbytes
      exact ⟨hstate.trans (hfollowed.end_eq hget hended), hup, hdown, hmoved⟩
    · intro reason hfailed
      have hend : conn.entry.state.rank = 2 := by rw [hfailed]; rfl
      refine ⟨?_, fun rest later hlater => ?_⟩
      · have hlast := hfollowed.end_eq hget hend
        rw [hfailed] at hlast
        cases hfirst : firstFailure address events with
        | none => simp [hfirst, lastState] at hlast
        | some first => rw [ConnectionState.failed.inj (hlast.trans (congrArg lastState hfirst))]
      · obtain ⟨after, hafter, hle, -⟩ := (hfollowed.keeps_of_run hlater).conns address conn hget
        exact ⟨after, hafter, (ConnectionState.eq_of_le hend hle.1).trans hfailed⟩
  · exact fun rest later hlater => hfollowed.keeps_of_run hlater
  · intro hidle
    rw [hfollowed.failures, countP_eq_sum]
    congr 1
    refine List.map_congr_left fun conn hmem => ?_
    rw [Conn.failures, hidle conn hmem]
    exact Nat.zero_add _

/-- A tunnel with two handles that fails on both, with a snapshot before and after. -/
def failedTunnel : List Event :=
  [.take .tunnel ['a'] ['d'] none 0, .insert 0, .own 0 .count, .lock, .readUp, .readRest, .unlock,
    .own 0 .setOpen, .own 0 .clone, .own 0 (.fail "reset"), .own 0 (.fail "refused"),
    .own 0 (.resume 0), .own 0 .drop, .own 0 (.resume 0), .own 0 .drop, .own 0 .mark,
    .own 0 .copy, .move 0, .lock, .unlock]

theorem life_forward_failedTunnel :
    ∃ final, run Tracker.step {} failedTunnel = some final ∧
      final.shown.flatten.map (·.state) = [.connecting, .failed "reset"] ∧
      final.failedRequests = final.conns.countP fun conn => conn.entry.isFailed := by
  have hrun : (run Tracker.step {} failedTunnel).map
      (fun final =>
        (final.shown.flatten.map (·.state), decide (∀ conn ∈ final.conns, conn.ops = []))) =
      some ([.connecting, .failed "reset"], true) := by
    decide +kernel
  obtain ⟨final, hfinal, hshown⟩ := Option.map_eq_some_iff.mp hrun
  obtain ⟨hstates, hidle⟩ := Prod.mk.inj hshown
  exact ⟨final, hfinal, hstates, (life_forward hfinal).2.2 (of_decide_eq_true hidle)⟩

end Tracker

end Book

end Zicade.Proxy
