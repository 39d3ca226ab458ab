import Mathlib.Logic.Function.Basic
import Zicade.Foundation.Runs
import Zicade.Proxy.Pump
import Zicade.Proxy.Tracker

/-! # The two directions of a tunnel

A splice runs two pumps. How the first one settles decides how long the other
is waited for: to its end, for a short grace, or not at all. The close is then
classified from both outcomes, and a failed one is reported to the tracked
entry.
-/

namespace Zicade.Proxy

open Zicade.Foundation

inductive Direction
  | clientToUpstream
  | upstreamToClient
  deriving DecidableEq, Repr

def Direction.other : Direction → Direction
  | .clientToUpstream => .upstreamToClient
  | .upstreamToClient => .clientToUpstream

inductive Endpoint
  | client
  | upstream
  deriving DecidableEq, Repr

def Endpoint.name : Endpoint → String
  | .client => "client"
  | .upstream => "upstream"

/-- A read failure blames the source, a write failure the sink. -/
def whoReset : Direction → PumpOp → Endpoint
  | .clientToUpstream, .read => .client
  | .clientToUpstream, .write => .upstream
  | .upstreamToClient, .read => .upstream
  | .upstreamToClient, .write => .client

/-- How long to keep the other direction alive once the first one settled. -/
inductive Wait
  | full
  | grace
  | none
  deriving DecidableEq, Repr

def waitFor (result : Except PumpError Unit) (direction : Direction) : Wait :=
  match result with
  | .ok () => .full
  | .error err =>
      match whoReset direction err.op with
      | .client => .none
      | .upstream => .grace

/-- The terminal state of one direction; a dropped one was abandoned. -/
inductive Outcome
  | eof
  | failed (err : PumpError)
  | dropped
  deriving DecidableEq, Repr

def Outcome.fromRes : Except PumpError Unit → Outcome
  | .ok () => .eof
  | .error err => .failed err

/-! ## Classifying a close -/

/-- The arms of the classification, in the order they are tried. -/
inductive CloseArm
  | uploadWrite (err : PumpError)
  | downloaded
  | downloadFailed (err : PumpError)
  | clientReset (err : PumpError)
  | other
  deriving DecidableEq, Repr

def closeArm : Outcome → Outcome → CloseArm
  | .failed ⟨.write, err⟩, _ => .uploadWrite ⟨.write, err⟩
  | _, .eof => .downloaded
  | _, .failed err => .downloadFailed err
  | .failed err, _ => .clientReset err
  | _, _ => .other

/-- The failure an arm stands for, and its direction. -/
def CloseArm.realFailure : CloseArm → Option (PumpError × Direction)
  | .uploadWrite err => some (err, .clientToUpstream)
  | .downloaded => none
  | .downloadFailed err => some (err, .upstreamToClient)
  | .clientReset err => some (err, .clientToUpstream)
  | .other => none

def failureReason (err : PumpError) (direction : Direction) : String :=
  s!"{(whoReset direction err.op).name} reset the tunnel: {err.err.message}"

/-! ## The splice -/

inductive SplicePhase
  | both
  | waiting (first : Direction) (result : Except PumpError Unit) (wait : Wait)
  | returned (c2u u2c : Outcome) (result : Except IoError Unit)
  deriving DecidableEq

/-- `fails` are the reasons this splice has reported to the tracked entry. -/
structure Splice where
  pumps : Direction → Pump
  phase : SplicePhase
  tracked : Tracked
  fails : List String

inductive SpliceEvent
  | pump (direction : Direction) (event : PumpEvent)
  | graceExpired
  deriving DecidableEq, Repr

namespace Splice

def start (tracked : Tracked) : Splice :=
  { pumps := fun _ => .new, phase := .both, tracked := tracked.setOpen, fails := [] }

/-- A pump has moved, and its relayed bytes are counted. -/
def advance (splice : Splice) (direction : Direction) (moved : Pump × Nat) : Splice :=
  { splice with
    pumps := Function.update splice.pumps direction moved.1
    tracked :=
      match direction with
      | .clientToUpstream => splice.tracked.addUp moved.2
      | .upstreamToClient => splice.tracked.addDown moved.2 }

/-- Classify the close, report a failure, and return. -/
def close (splice : Splice) (c2u u2c : Outcome) : Splice :=
  match (closeArm c2u u2c).realFailure with
  | some (err, direction) =>
      { splice with
        phase := .returned c2u u2c (.error ⟨err.err.kind, err.err.message⟩)
        tracked := splice.tracked.fail (failureReason err direction)
        fails := splice.fails ++ [failureReason err direction] }
  | none => { splice with phase := .returned c2u u2c (.ok ()) }

/-- Both directions have come to their outcomes. -/
def finish (splice : Splice) (first : Direction) (result : Except PumpError Unit)
    (other : Outcome) : Splice :=
  match first with
  | .clientToUpstream => splice.close (.fromRes result) other
  | .upstreamToClient => splice.close other (.fromRes result)

/-- The first direction has settled; a client that is gone ends the other too. -/
def firstSettled (splice : Splice) (first : Direction) (result : Except PumpError Unit) : Splice :=
  match waitFor result first with
  | .none => splice.finish first result .dropped
  | .full => { splice with phase := .waiting first result .full }
  | .grace => { splice with phase := .waiting first result .grace }

def step (splice : Splice) (event : SpliceEvent) : Option Splice :=
  match splice.phase, event with
  | .both, .pump direction event =>
      ((splice.pumps direction).step event).map fun moved =>
        match moved.1.phase with
        | .settled result => (splice.advance direction moved).firstSettled direction result
        | _ => splice.advance direction moved
  | .waiting first firstResult _, .pump direction event =>
      if direction = first then none
      else
        ((splice.pumps direction).step event).map fun moved =>
          match moved.1.phase with
          | .settled result =>
              (splice.advance direction moved).finish first firstResult (.fromRes result)
          | _ => splice.advance direction moved
  | .waiting first result .grace, .graceExpired => some (splice.finish first result .dropped)
  | _, _ => none

end Splice

/-- The events of one direction. -/
def eventsOf (direction : Direction) (events : List SpliceEvent) : List PumpEvent :=
  events.filterMap fun event =>
    match event with
    | .pump other event => if other = direction then some event else none
    | .graceExpired => none

/-- How a pump would be accounted for now. -/
def Pump.outcome (pump : Pump) : Outcome :=
  match pump.phase with
  | .settled result => .fromRes result
  | .reading => .dropped
  | .writing _ _ => .dropped

def Pump.running (pump : Pump) : Prop := ∀ result, pump.phase ≠ .settled result

theorem Pump.outcome_of_settled {pump : Pump} {result : Except PumpError Unit}
    (hsettled : pump.phase = .settled result) : pump.outcome = .fromRes result := by
  rw [outcome, hsettled]

theorem Pump.outcome_of_running {pump : Pump} (hrunning : pump.running) :
    pump.outcome = .dropped := by
  unfold outcome
  split
  next result hphase => exact absurd hphase (hrunning result)
  next => rfl
  next => rfl

theorem Outcome.fromRes_ne_dropped (result : Except PumpError Unit) :
    Outcome.fromRes result ≠ .dropped := by
  cases result <;> simp [fromRes]

theorem eventsOf_self (direction : Direction) (past : List SpliceEvent) (event : PumpEvent) :
    eventsOf direction (past ++ [.pump direction event]) = eventsOf direction past ++ [event] := by
  simp [eventsOf]

theorem eventsOf_ne {direction other : Direction} (past : List SpliceEvent) (event : PumpEvent)
    (hne : other ≠ direction) :
    eventsOf direction (past ++ [.pump other event]) = eventsOf direction past := by
  simp [eventsOf, hne]

theorem eventsOf_graceExpired (direction : Direction) (past : List SpliceEvent) :
    eventsOf direction (past ++ [.graceExpired]) = eventsOf direction past := by
  simp [eventsOf]

theorem mem_eventsOf {direction : Direction} {events : List SpliceEvent} {event : PumpEvent} :
    event ∈ eventsOf direction events ↔ .pump direction event ∈ events := by
  unfold eventsOf
  rw [List.mem_filterMap]
  constructor
  · rintro ⟨source, hmem, hsource⟩
    cases source with
    | graceExpired => cases hsource
    | pump other fed =>
        obtain ⟨hother, hfed⟩ : other = direction ∧ fed = event := by simpa using hsource
        rwa [← hother, ← hfed]
  · intro hmem
    exact ⟨_, hmem, by simp⟩

theorem Direction.other_ne (direction : Direction) : direction.other ≠ direction := by
  cases direction <;> simp [other]

theorem Direction.eq_other {direction first : Direction} (hne : direction ≠ first) :
    direction = first.other := by
  cases direction <;> cases first <;> first | rfl | exact absurd rfl hne

/-! ## What a splice keeps -/

/-- The splice has reported no failure. -/
structure Splice.Unreported (begun : Tracked) (splice : Splice) : Prop where
  fails : splice.fails = []
  failed : splice.tracked.entry.failed = begun.entry.failed
  counted : splice.tracked.metrics.failedRequests = begun.metrics.failedRequests

/-- The splice has reported one failure, and marked an entry that was not yet. -/
structure Splice.Reported (begun : Tracked) (splice : Splice) (reason : String) : Prop where
  fails : splice.fails = [reason]
  marked : begun.entry.failed = false → splice.tracked.entry.failed = true ∧
    splice.tracked.entry.state = .failed reason ∧
    splice.tracked.metrics.failedRequests = begun.metrics.failedRequests + 1

/-- What holds of a splice that has returned. -/
structure Splice.Closed (begun : Tracked) (splice : Splice) (c2u u2c : Outcome)
    (result : Except IoError Unit) : Prop where
  upload : c2u = (splice.pumps .clientToUpstream).outcome
  download : u2c = (splice.pumps .upstreamToClient).outcome
  abandoned : ∀ direction, (splice.pumps direction).outcome = .dropped →
    ∃ err, (splice.pumps direction.other).outcome = .failed err
  failure : ∀ err direction, (closeArm c2u u2c).realFailure = some (err, direction) →
    result = .error ⟨err.err.kind, err.err.message⟩ ∧
      splice.Reported begun (failureReason err direction)
  success : (closeArm c2u u2c).realFailure = none → result = .ok () ∧ splice.Unreported begun

/-- The invariant of a splice over the events it was fed. -/
structure Splice.Lawful (begun : Tracked) (past : List SpliceEvent) (splice : Splice) : Prop where
  relays : ∀ direction, (splice.pumps direction).Relays (eventsOf direction past)
  both : splice.phase = .both →
    (∀ direction, (splice.pumps direction).running) ∧ splice.Unreported begun
  waiting : ∀ first result wait, splice.phase = .waiting first result wait →
    wait = waitFor result first ∧ (splice.pumps first).phase = .settled result ∧
      (splice.pumps first.other).running ∧ splice.Unreported begun
  returned : ∀ c2u u2c result, splice.phase = .returned c2u u2c result →
    splice.Closed begun c2u u2c result

namespace Splice

variable {begun : Tracked}

theorem lawful_start (begun : Tracked) : (start begun).Lawful begun [] := by
  constructor
  · intro direction
    exact Pump.relays_new
  · intro _
    refine ⟨?_, rfl, by simp [start], by simp [start]⟩
    intro direction result hphase
    cases hphase
  · intro first result wait hphase
    cases hphase
  · intro c2u u2c result hphase
    cases hphase

/-- Only an upstream reset is granted less than full time without ending the
splice, and only an error is granted less than that. -/
theorem error_of_waitFor_ne_full {result : Except PumpError Unit} (direction : Direction)
    (hwait : waitFor result direction ≠ .full) : ∃ err, result = .error err := by
  cases result with
  | ok value => exact absurd rfl hwait
  | error err => exact ⟨err, rfl⟩

theorem advance_pumps (splice : Splice) (direction : Direction) (moved : Pump × Nat) :
    (splice.advance direction moved).pumps = Function.update splice.pumps direction moved.1 := rfl

theorem unreported_advance {splice : Splice} (hunreported : splice.Unreported begun)
    (direction : Direction) (moved : Pump × Nat) :
    (splice.advance direction moved).Unreported begun := by
  obtain ⟨hfails, hfailed, hcounted⟩ := hunreported
  cases direction <;> exact ⟨hfails, by simpa [advance] using hfailed,
    by simpa [advance] using hcounted⟩

/-- Moving one pump feeds that pump, and the other keeps its history. -/
theorem relays_advance {past : List SpliceEvent} {splice : Splice} {direction : Direction}
    {event : PumpEvent} {moved : Pump × Nat}
    (hrelays : ∀ direction, (splice.pumps direction).Relays (eventsOf direction past))
    (hstep : (splice.pumps direction).step event = some moved) (other : Direction) :
    ((splice.advance direction moved).pumps other).Relays
      (eventsOf other (past ++ [.pump direction event])) := by
  by_cases hother : other = direction
  · subst hother
    rw [eventsOf_self, advance_pumps, Function.update_self]
    exact Pump.relays_step (hrelays other) (Pump.step_effect hstep)
  · rw [eventsOf_ne past event (Ne.symm hother), advance_pumps, Function.update_of_ne hother]
    exact hrelays other

theorem close_phase (splice : Splice) (c2u u2c : Outcome) :
    ∃ result, (splice.close c2u u2c).phase = .returned c2u u2c result := by
  unfold close
  split
  · exact ⟨_, rfl⟩
  · exact ⟨_, rfl⟩

@[simp] theorem close_pumps (splice : Splice) (c2u u2c : Outcome) :
    (splice.close c2u u2c).pumps = splice.pumps := by
  unfold close
  split <;> rfl

/-- Closing returns what the classification says, and reports it once. -/
theorem closed_close {splice : Splice} {c2u u2c : Outcome} (hunreported : splice.Unreported begun)
    (hc2u : c2u = (splice.pumps .clientToUpstream).outcome)
    (hu2c : u2c = (splice.pumps .upstreamToClient).outcome)
    (habandoned : ∀ direction, (splice.pumps direction).outcome = .dropped →
      ∃ err, (splice.pumps direction.other).outcome = .failed err)
    {result : Except IoError Unit}
    (hphase : (splice.close c2u u2c).phase = .returned c2u u2c result) :
    (splice.close c2u u2c).Closed begun c2u u2c result := by
  refine ⟨by rw [close_pumps, hc2u], by rw [close_pumps, hu2c], by rwa [close_pumps], ?_, ?_⟩
  · intro err direction hfailure
    unfold close at hphase ⊢
    rw [hfailure] at hphase ⊢
    dsimp only at hphase ⊢
    refine ⟨?_, ?_, ?_⟩
    · simpa using hphase.symm
    · rw [hunreported.fails, List.nil_append]
    · intro hfresh
      rw [← hunreported.counted]
      apply Tracked.fail_of_not_failed
      rw [hunreported.failed, hfresh]
  · intro hsuccess
    unfold close at hphase ⊢
    rw [hsuccess] at hphase ⊢
    dsimp only at hphase ⊢
    refine ⟨?_, hunreported.fails, hunreported.failed, hunreported.counted⟩
    simpa using hphase.symm

/-- A splice that is closed keeps the invariant. -/
theorem lawful_finish {past : List SpliceEvent} {splice : Splice} {first : Direction}
    {result : Except PumpError Unit} {other : Outcome}
    (hrelays : ∀ direction, (splice.pumps direction).Relays (eventsOf direction past))
    (hunreported : splice.Unreported begun)
    (hfirst : (splice.pumps first).phase = .settled result)
    (hother : other = (splice.pumps first.other).outcome)
    (habandoned : other = .dropped → ∃ err, result = .error err) :
    (splice.finish first result other).Lawful begun past := by
  have houtcome := Pump.outcome_of_settled hfirst
  have hdropped : ∀ direction, (splice.pumps direction).outcome = .dropped →
      ∃ err, (splice.pumps direction.other).outcome = .failed err := by
    intro direction hdropped
    by_cases hdirection : direction = first
    · rw [hdirection, houtcome] at hdropped
      exact absurd hdropped (Outcome.fromRes_ne_dropped result)
    · rw [Direction.eq_other hdirection, ← hother] at hdropped
      obtain ⟨err, rfl⟩ := habandoned hdropped
      refine ⟨err, ?_⟩
      have hback : direction.other = first := by
        rw [Direction.eq_other hdirection]
        cases first <;> rfl
      rw [hback, houtcome]
      rfl
  have hclose : ∃ c2u u2c, splice.finish first result other = splice.close c2u u2c ∧
      c2u = (splice.pumps .clientToUpstream).outcome ∧
      u2c = (splice.pumps .upstreamToClient).outcome := by
    cases first with
    | clientToUpstream => exact ⟨_, _, rfl, houtcome.symm, hother⟩
    | upstreamToClient => exact ⟨_, _, rfl, hother, houtcome.symm⟩
  obtain ⟨c2u, u2c, hfinish, hc2u, hu2c⟩ := hclose
  rw [hfinish]
  obtain ⟨verdict, hphase⟩ := splice.close_phase c2u u2c
  have hclosed := closed_close hunreported hc2u hu2c hdropped hphase
  constructor
  · rwa [close_pumps]
  · intro hboth
    rw [hphase] at hboth
    cases hboth
  · intro first result wait hwaiting
    rw [hphase] at hwaiting
    cases hwaiting
  · intro c2u' u2c' result' hreturned
    rw [hphase] at hreturned
    obtain ⟨rfl, rfl, rfl⟩ : c2u = c2u' ∧ u2c = u2c' ∧ verdict = result' := by
      simpa using hreturned
    exact hclosed

/-- The first direction to settle leaves the other running, or abandons it. -/
theorem lawful_firstSettled {past : List SpliceEvent} {splice : Splice} {first : Direction}
    {result : Except PumpError Unit}
    (hrelays : ∀ direction, (splice.pumps direction).Relays (eventsOf direction past))
    (hunreported : splice.Unreported begun)
    (hfirst : (splice.pumps first).phase = .settled result)
    (hother : (splice.pumps first.other).running) :
    (splice.firstSettled first result).Lawful begun past := by
  have hwaits : ∀ wait, wait = waitFor result first →
      Splice.Lawful begun past { splice with phase := .waiting first result wait } := by
    intro wait hwait
    refine ⟨hrelays, by simp, ?_, by simp⟩
    intro first' result' wait' hphase
    obtain ⟨rfl, rfl, rfl⟩ : first = first' ∧ result = result' ∧ wait = wait' := by
      simpa using hphase
    exact ⟨hwait, hfirst, hother, hunreported.fails, hunreported.failed, hunreported.counted⟩
  unfold firstSettled
  split
  next hnone =>
    apply lawful_finish hrelays hunreported hfirst (Pump.outcome_of_running hother).symm
    intro _
    apply error_of_waitFor_ne_full first
    rw [hnone]
    simp
  next hfull => exact hwaits .full hfull.symm
  next hgrace => exact hwaits .grace hgrace.symm

theorem lawful_step {past : List SpliceEvent} {splice next : Splice} {event : SpliceEvent}
    (hlawful : splice.Lawful begun past) (hstep : splice.step event = some next) :
    next.Lawful begun (past ++ [event]) := by
  cases hphase : splice.phase with
  | both =>
      obtain ⟨hrunning, hunreported⟩ := hlawful.both hphase
      cases event with
      | graceExpired => simp [step, hphase] at hstep
      | pump direction event =>
          simp only [step, hphase, Option.map_eq_some_iff] at hstep
          obtain ⟨moved, hmoved, hnext⟩ := hstep
          have hrelays := relays_advance hlawful.relays hmoved
          have hkeeps := unreported_advance hunreported direction moved
          have hself : (splice.advance direction moved).pumps direction = moved.1 := by
            rw [advance_pumps, Function.update_self]
          have hrest : ∀ other, other ≠ direction →
              (splice.advance direction moved).pumps other = splice.pumps other := by
            intro other hother
            rw [advance_pumps, Function.update_of_ne hother]
          split at hnext
          next result hsettled =>
            rw [← hnext]
            apply lawful_firstSettled hrelays hkeeps
            · rw [hself, hsettled]
            · rw [hrest _ direction.other_ne]
              exact hrunning _
          next hunsettled =>
            rw [← hnext]
            refine ⟨hrelays, fun _ => ⟨?_, hkeeps⟩, ?_, ?_⟩
            · intro other
              by_cases hother : other = direction
              · rw [hother, hself]
                exact fun result hresult => hunsettled result hresult
              · rw [hrest other hother]
                exact hrunning other
            · intro first result wait hwaiting
              simp [advance, hphase] at hwaiting
            · intro c2u u2c result hreturned
              simp [advance, hphase] at hreturned
  | waiting first firstResult wait =>
      -- only the other direction can still move, until it settles or is abandoned
      obtain ⟨hwait, hfirst, hother, hunreported⟩ := hlawful.waiting _ _ _ hphase
      cases event with
      | graceExpired =>
          cases wait with
          | full => simp [step, hphase] at hstep
          | none => simp [step, hphase] at hstep
          | grace =>
              simp only [step, hphase, Option.some.injEq] at hstep
              rw [← hstep]
              apply lawful_finish _ hunreported hfirst (Pump.outcome_of_running hother).symm
              · intro _
                apply error_of_waitFor_ne_full first
                rw [← hwait]
                simp
              · intro direction
                rw [eventsOf_graceExpired]
                exact hlawful.relays direction
      | pump direction event =>
          simp only [step, hphase] at hstep
          split at hstep
          next => cases hstep
          next hne =>
            rw [Option.map_eq_some_iff] at hstep
            obtain ⟨moved, hmoved, hnext⟩ := hstep
            have hrelays := relays_advance hlawful.relays hmoved
            have hkeeps := unreported_advance hunreported direction moved
            have hdirection := Direction.eq_other hne
            have hself : (splice.advance direction moved).pumps first.other = moved.1 := by
              rw [advance_pumps, hdirection, Function.update_self]
            have hsettledFirst :
                ((splice.advance direction moved).pumps first).phase = .settled firstResult := by
              rw [advance_pumps, Function.update_of_ne (Ne.symm hne), hfirst]
            split at hnext
            next result hsettled =>
              rw [← hnext]
              apply lawful_finish hrelays hkeeps hsettledFirst
              · rw [hself, Pump.outcome_of_settled hsettled]
              · intro hdropped
                exact absurd hdropped (Outcome.fromRes_ne_dropped result)
            next hunsettled =>
              rw [← hnext]
              refine ⟨hrelays, ?_, ?_, ?_⟩
              · intro hboth
                simp [advance, hphase] at hboth
              · intro first' result' wait' hwaiting
                obtain ⟨rfl, rfl, rfl⟩ :
                    first = first' ∧ firstResult = result' ∧ wait = wait' := by
                  simpa [advance, hphase] using hwaiting
                refine ⟨hwait, hsettledFirst, ?_, hkeeps⟩
                rw [hself]
                exact fun result hresult => hunsettled result hresult
              · intro c2u u2c result hreturned
                simp [advance, hphase] at hreturned
  | returned c2u u2c result =>
      cases event <;> simp [step, hphase] at hstep

theorem lawful_run {events : List SpliceEvent} {final : Splice}
    (hrun : run step (start begun) events = some final) : final.Lawful begun events :=
  run_history_invariant (fun past splice => splice.Lawful begun past) (lawful_start begun)
    (fun _ _ _ _ hlawful hstep => lawful_step hlawful hstep) hrun

/-! ## The verdict -/

/-- What the return of a splice says about its run. -/
structure Verdict (begun : Tracked) (events : List SpliceEvent) (final : Splice)
    (c2u u2c : Outcome) (result : Except IoError Unit) : Prop where
  delivered : result = .ok () → .pump .upstreamToClient .eof ∈ events ∧
    (final.pumps .upstreamToClient).accepted = (final.pumps .upstreamToClient).received
  uploaded : result = .ok () →
    ∀ event, .pump .clientToUpstream event ∈ events → event.failsWrite = false
  reported : (∃ err, result = .error err) ↔ ∃ reason, final.fails = [reason]
  unreported : result = .ok () ↔ final.fails = []
  marked : begun.entry.failed = false →
    ((∃ err, result = .error err) ↔ final.tracked.entry.failed = true) ∧
      final.tracked.metrics.failedRequests =
        begun.metrics.failedRequests + final.fails.length ∧
      ∀ reason, final.fails = [reason] → final.tracked.entry.state = .failed reason
  finished : result = .ok () → c2u ≠ .dropped ∧ u2c ≠ .dropped
  counted : (c2u = .eof → .pump .clientToUpstream .eof ∈ events) ∧
    (u2c = .eof → .pump .upstreamToClient .eof ∈ events)
  arm : closeArm c2u u2c ≠ .other

/-- Which outcomes an arm of the classification is for. -/
inductive Classified : Outcome → Outcome → CloseArm → Prop
  | uploadWrite (err : IoError) (u2c : Outcome) :
      Classified (.failed ⟨.write, err⟩) u2c (.uploadWrite ⟨.write, err⟩)
  | downloaded (c2u : Outcome) (hwrite : ∀ err, c2u ≠ .failed ⟨.write, err⟩) :
      Classified c2u .eof .downloaded
  | downloadFailed (c2u : Outcome) (err : PumpError) :
      Classified c2u (.failed err) (.downloadFailed err)
  | clientReset (err : PumpError) : Classified (.failed err) .dropped (.clientReset err)
  | other (c2u : Outcome) (hfailed : ∀ err, c2u ≠ .failed err) : Classified c2u .dropped .other

theorem closeArm_classified (c2u u2c : Outcome) : Classified c2u u2c (closeArm c2u u2c) := by
  unfold closeArm
  split
  next err => exact .uploadWrite err _
  next hwrite => exact .downloaded _ fun err h => hwrite err h
  next err _ => exact .downloadFailed _ err
  next err _ heof hfailed =>
    cases u2c with
    | eof => exact absurd rfl heof
    | failed fault => exact absurd rfl (hfailed fault)
    | dropped => exact .clientReset err
  next hupload heof hfailed =>
    cases u2c with
    | eof => exact absurd rfl heof
    | failed fault => exact absurd rfl (hfailed fault)
    | dropped => exact .other _ hupload

/-- The last arm is for a dropped download without a failed upload. -/
theorem closeArm_ne_other {c2u u2c : Outcome}
    (hdropped : u2c = .dropped → ∃ err, c2u = .failed err) : closeArm c2u u2c ≠ .other := by
  intro hother
  have hclassified := closeArm_classified c2u u2c
  rw [hother] at hclassified
  cases hclassified with
  | other c2u hfailed =>
      obtain ⟨err, herr⟩ := hdropped rfl
      exact hfailed err herr

/-- A close without a failure is a finished download whose upload failed no write. -/
theorem realFailure_eq_none {c2u u2c : Outcome} (hother : closeArm c2u u2c ≠ .other)
    (hnone : (closeArm c2u u2c).realFailure = none) :
    u2c = .eof ∧ ∀ err, c2u ≠ .failed ⟨.write, err⟩ := by
  have hclassified := closeArm_classified c2u u2c
  generalize closeArm c2u u2c = arm at hclassified hother hnone
  cases hclassified with
  | downloaded c2u hwrite => exact ⟨rfl, hwrite⟩
  | uploadWrite err u2c => cases hnone
  | downloadFailed c2u err => cases hnone
  | clientReset err => cases hnone
  | other c2u hfailed => exact absurd rfl hother

theorem settled_of_outcome_eof {pump : Pump} (heof : pump.outcome = .eof) :
    pump.phase = .settled (.ok ()) := by
  cases hphase : pump.phase with
  | settled result =>
      rw [Pump.outcome_of_settled hphase] at heof
      cases result with
      | ok value => rfl
      | error err => cases heof
  | reading => simp [Pump.outcome, hphase] at heof
  | writing chunk rest => simp [Pump.outcome, hphase] at heof

/-- A direction counted as finished has seen the end of its source, and its sink
has everything that was read. -/
theorem Lawful.ended_of_eof {past : List SpliceEvent} {splice : Splice}
    (hlawful : splice.Lawful begun past) {direction : Direction}
    (heof : (splice.pumps direction).outcome = .eof) :
    .pump direction .eof ∈ past ∧
      (splice.pumps direction).accepted = (splice.pumps direction).received := by
  obtain ⟨hsame, hmem⟩ := (hlawful.relays direction).ended (settled_of_outcome_eof heof)
  exact ⟨mem_eventsOf.mp hmem, hsame⟩

/-- A splice that returns `Ok` has delivered the whole download; one that fails
has marked its entry, once. -/
theorem splice_verdict {events : List SpliceEvent} {final : Splice} {c2u u2c : Outcome}
    {result : Except IoError Unit} (hrun : run step (start begun) events = some final)
    (hreturned : final.phase = .returned c2u u2c result) :
    Verdict begun events final c2u u2c result := by
  have hlawful := lawful_run hrun
  have hclosed := hlawful.returned c2u u2c result hreturned
  have harm : closeArm c2u u2c ≠ .other := by
    apply closeArm_ne_other
    rw [hclosed.upload, hclosed.download]
    exact hclosed.abandoned .upstreamToClient
  have hcounted : (c2u = .eof → .pump .clientToUpstream .eof ∈ events) ∧
      (u2c = .eof → .pump .upstreamToClient .eof ∈ events) :=
    ⟨fun heof => (hlawful.ended_of_eof (hclosed.upload.symm.trans heof)).1,
      fun heof => (hlawful.ended_of_eof (hclosed.download.symm.trans heof)).1⟩
  cases hfailure : (closeArm c2u u2c).realFailure with
  | some failure =>
      obtain ⟨err, direction⟩ := failure
      obtain ⟨rfl, hreported⟩ := hclosed.failure err direction hfailure
      refine ⟨by simp, by simp, ?_, ?_, ?_, by simp, hcounted, harm⟩
      · rw [hreported.fails]
        simp
      · rw [hreported.fails]
        simp
      · intro hfresh
        obtain ⟨hmarked, hstate, hcounted⟩ := hreported.marked hfresh
        refine ⟨by simp [hmarked], by rw [hcounted, hreported.fails]; rfl, ?_⟩
        intro reason hreason
        rw [hreported.fails] at hreason
        rw [hstate, List.singleton_inj.mp hreason]
  | none =>
      obtain ⟨rfl, hunreported⟩ := hclosed.success hfailure
      obtain ⟨heof, hupload⟩ := realFailure_eq_none harm hfailure
      refine ⟨fun _ => ?_, fun _ event hmem => ?_, ?_, ?_, ?_, fun _ => ⟨?_, ?_⟩, hcounted,
        harm⟩
      · exact hlawful.ended_of_eof (hclosed.download.symm.trans heof)
      · by_contra hfails
        obtain ⟨err, herr⟩ := (hlawful.relays .clientToUpstream).writes
          ⟨event, mem_eventsOf.mpr hmem, by simpa using hfails⟩
        apply hupload err
        rw [hclosed.upload, Pump.outcome_of_settled herr]
        rfl
      · rw [hunreported.fails]
        simp
      · rw [hunreported.fails]
        simp
      · intro hfresh
        refine ⟨by simp [hunreported.failed, hfresh], ?_, ?_⟩
        · rw [hunreported.counted, hunreported.fails]
          rfl
        · rw [hunreported.fails]
          simp
      · -- an upload is abandoned only for a failed download, and this one ended
        intro hdropped
        rw [hclosed.upload] at hdropped
        obtain ⟨err, herr⟩ := hclosed.abandoned .clientToUpstream hdropped
        have hdownload := hclosed.download
        rw [heof] at hdownload
        change (final.pumps .upstreamToClient).outcome = .failed err at herr
        rw [← hdownload] at herr
        cases herr
      · rw [heof]
        simp

end Splice

/-! ## A half-closed upload -/

def freshTracked : Tracked := ⟨⟨0, 0, false, .connecting⟩, ⟨0, 0, 0⟩⟩

/-- The client ends its side, and the response still arrives. -/
def halfClosed : List SpliceEvent :=
  [.pump .clientToUpstream (.chunk [1]), .pump .clientToUpstream (.accepted 1),
    .pump .clientToUpstream .eof, .pump .upstreamToClient (.chunk [2, 3, 4]),
    .pump .upstreamToClient (.accepted 2), .pump .upstreamToClient (.accepted 1),
    .pump .upstreamToClient .eof]

theorem splice_verdict_sample : ∃ final,
    run Splice.step (.start freshTracked) halfClosed = some final ∧
      Splice.Verdict freshTracked halfClosed final .eof .eof (.ok ()) := by
  have hsome : (run Splice.step (.start freshTracked) halfClosed).isSome = true := by
    decide +kernel
  refine ⟨_, (Option.some_get hsome).symm, ?_⟩
  apply Splice.splice_verdict (Option.some_get hsome).symm
  rfl

/-- A client that resets before the download has ended fails the tunnel. -/
example : (run Splice.step (.start freshTracked)
    [.pump .upstreamToClient (.chunk [2, 3, 4]), .pump .upstreamToClient (.accepted 3),
      .pump .clientToUpstream (.readError ⟨.connectionReset, "reset"⟩)]).map (·.fails) =
    some ["client reset the tunnel: reset"] := by decide +kernel

end Zicade.Proxy
