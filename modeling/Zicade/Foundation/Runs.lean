import Mathlib.Data.List.DropRight
import Mathlib.Data.List.Forall2
import Mathlib.Data.List.Induction

/-! # Runs of a step function

A machine is a step function that refuses the events it does not allow. A run
feeds it a finite schedule of events in order. Safety of every reachable state
follows from one obligation per step, stated here once for invariants that also
mention the events so far.
-/

namespace Zicade.Foundation

variable {State Event : Type*}

/-- Feed a schedule of events to a step function; `none` once one is refused. -/
def run (step : State → Event → Option State) (start : State) (events : List Event) :
    Option State :=
  events.foldlM step start

variable {step : State → Event → Option State} {start : State}

@[simp] theorem run_nil : run step start [] = some start := rfl

theorem run_cons (event : Event) (rest : List Event) :
    run step start (event :: rest) = (step start event).bind fun next => run step next rest := by
  rw [run, List.foldlM_cons]
  rfl

theorem run_append (before after : List Event) :
    run step start (before ++ after) =
      (run step start before).bind fun middle => run step middle after := by
  rw [run, List.foldlM_append]
  rfl

theorem run_concat {events : List Event} {event : Event} {final : State}
    (hrun : run step start (events ++ [event]) = some final) :
    ∃ middle, run step start events = some middle ∧ step middle event = some final := by
  rw [run_append] at hrun
  obtain ⟨middle, hmiddle, hlast⟩ := Option.bind_eq_some_iff.mp hrun
  refine ⟨middle, hmiddle, ?_⟩
  rw [run_cons] at hlast
  obtain ⟨last, hstep, hnil⟩ := Option.bind_eq_some_iff.mp hlast
  rw [run_nil, Option.some.injEq] at hnil
  rw [hstep, hnil]

/-- An invariant over the schedule so far and the state it led to holds of
every run, once it holds at the start and every step extends it. -/
theorem run_history_invariant (inv : List Event → State → Prop) (hstart : inv [] start)
    (hstep : ∀ past state event next, inv past state → step state event = some next →
      inv (past ++ [event]) next)
    {events : List Event} {final : State} (hrun : run step start events = some final) :
    inv events final := by
  induction events using List.reverseRecOn generalizing final with
  | nil =>
      rw [run_nil, Option.some.injEq] at hrun
      exact hrun ▸ hstart
  | append_singleton past event ih =>
      obtain ⟨middle, hpast, hlast⟩ := run_concat hrun
      exact hstep past middle event final (ih hpast) hlast

/-- Every event of a schedule meets a condition in the state it finds. -/
def StepsMeet (step : State → Event → Option State) (meets : State → Event → Prop) :
    State → List Event → Prop
  | _, [] => True
  | state, event :: rest =>
      meets state event ∧
        match step state event with
        | some next => StepsMeet step meets next rest
        | none => True

instance StepsMeet.decidable (step : State → Event → Option State)
    (meets : State → Event → Prop) [∀ state event, Decidable (meets state event)] :
    ∀ state events, Decidable (StepsMeet step meets state events)
  | _, [] => .isTrue trivial
  | state, event :: rest => by
      unfold StepsMeet
      cases step state event with
      | none => infer_instance
      | some next =>
          have := StepsMeet.decidable step meets next rest
          infer_instance

/-- An invariant that every step meeting a condition keeps holds after every run
whose steps meet it. -/
theorem run_invariant_of_stepsMeet {meets : State → Event → Prop} (inv : State → Prop)
    (hstep : ∀ state event next, inv state → meets state event → step state event = some next →
      inv next)
    {events : List Event} {final : State} (hstart : inv start)
    (hmeets : StepsMeet step meets start events) (hrun : run step start events = some final) :
    inv final := by
  induction events generalizing start with
  | nil =>
      rw [run_nil, Option.some.injEq] at hrun
      exact hrun ▸ hstart
  | cons event rest ih =>
      rw [run_cons] at hrun
      obtain ⟨next, hnext, hrest⟩ := Option.bind_eq_some_iff.mp hrun
      obtain ⟨hevent, hothers⟩ := hmeets
      rw [hnext] at hothers
      exact ih (hstep start event next hstart hevent hnext) hothers hrest

/-- The same rule without a condition. -/
theorem run_invariant (inv : State → Prop)
    (hstep : ∀ state event next, inv state → step state event = some next → inv next)
    {events : List Event} {final : State} (hstart : inv start)
    (hrun : run step start events = some final) : inv final :=
  run_history_invariant (fun _ state => inv state) hstart
    (fun _ state event next hinv hnext => hstep state event next hinv hnext) hrun

/-- When a run of another machine matches each step, with what an event allows, one matches
each run, event by event. -/
theorem run_matched {Image Matching : Type*} {other : Image → Matching → Option Image}
    {origin : Image} (allowed : Event → List Matching → Prop) (related : Image → State → Prop)
    (hstart : related origin start)
    (hstep : ∀ image state event next, related image state → step state event = some next →
      ∃ matching after, allowed event matching ∧ run other image matching = some after ∧
        related after next)
    {events : List Event} {final : State} (hrun : run step start events = some final) :
    ∃ groups image, List.Forall₂ allowed events groups ∧
      run other origin groups.flatten = some image ∧ related image final := by
  refine run_history_invariant (fun past state => ∃ groups image,
    List.Forall₂ allowed past groups ∧ run other origin groups.flatten = some image ∧
      related image state) ⟨[], origin, .nil, rfl, hstart⟩ ?_ hrun
  rintro past state event next ⟨groups, image, hgroups, hpast, hrelated⟩ hnext
  obtain ⟨matching, after, hallowed, hmatching, hafter⟩ :=
    hstep image state event next hrelated hnext
  refine ⟨groups ++ [matching], after, List.rel_append hgroups (.cons hallowed .nil), ?_, hafter⟩
  rw [List.flatten_append, List.flatten_singleton, run_append, hpast]
  exact hmatching

/-- When a run of another machine matches each step, one matches each run. -/
theorem run_simulated {Image Matching : Type*} {other : Image → Matching → Option Image}
    {origin : Image} (related : Image → State → Prop) (hstart : related origin start)
    (hstep : ∀ image state event next, related image state → step state event = some next →
      ∃ matching after, run other image matching = some after ∧ related after next)
    {events : List Event} {final : State} (hrun : run step start events = some final) :
    ∃ matching image, run other origin matching = some image ∧ related image final := by
  obtain ⟨groups, image, -, hmatching, hrelated⟩ := run_matched (fun _ _ => True) related hstart
    (fun image state event next hrelated hnext => by
      obtain ⟨matching, after, hmatching⟩ := hstep image state event next hrelated hnext
      exact ⟨matching, after, trivial, hmatching⟩) hrun
  exact ⟨groups.flatten, image, hmatching, hrelated⟩

/-- When another machine takes each step with the same event, it takes each run so. -/
theorem run_refines {Image : Type*} {other : Image → Event → Option Image} {origin : Image}
    (related : Image → State → Prop) (hstart : related origin start)
    (hstep : ∀ image state event next, related image state → step state event = some next →
      ∃ after, other image event = some after ∧ related after next)
    {events : List Event} {final : State} (hrun : run step start events = some final) :
    ∃ image, run other origin events = some image ∧ related image final := by
  induction events using List.reverseRecOn generalizing final with
  | nil =>
      rw [run_nil, Option.some.injEq] at hrun
      exact ⟨origin, rfl, hrun ▸ hstart⟩
  | append_singleton past event ih =>
      obtain ⟨middle, hpast, hlast⟩ := run_concat hrun
      obtain ⟨image, himage, hrelated⟩ := ih hpast
      obtain ⟨after, hafter, hnext⟩ := hstep image middle event final hrelated hlast
      refine ⟨after, ?_, hnext⟩
      rw [run_append, himage, Option.bind_some, run_cons, hafter]
      rfl

/-- When a map of the states that meet an invariant takes every step to a step of another
machine, refusals included, it takes every run to a run. -/
theorem run_map {Image : Type*} {other : Image → Event → Option Image} {view : State → Image}
    (inv : State → Prop)
    (hkept : ∀ state event next, inv state → step state event = some next → inv next)
    (hstep : ∀ state event, inv state → (step state event).map view = other (view state) event)
    (hstart : inv start) (events : List Event) :
    (run step start events).map view = run other (view start) events := by
  induction events generalizing start with
  | nil => rfl
  | cons event rest ih =>
      rw [run_cons, run_cons, ← hstep start event hstart]
      cases hnext : step start event with
      | none => rfl
      | some next => exact ih (hkept start event next hstart hnext)

/-- The same rule for a machine that refuses nothing. -/
theorem foldl_history_invariant {step : State → Event → State}
    (inv : List Event → State → Prop) (hstart : inv [] start)
    (hstep : ∀ past state event, inv past state → inv (past ++ [event]) (step state event))
    (events : List Event) : inv events (events.foldl step start) := by
  induction events using List.reverseRecOn with
  | nil => exact hstart
  | append_singleton past event ih =>
      rw [List.foldl_append, List.foldl_cons, List.foldl_nil]
      exact hstep past _ event ih

/-! ## Machines that answer -/

section Answers

variable {Reply : Type*}

/-- What a machine that refuses nothing answers to the events of a schedule. -/
def replies (step : State → Event → Reply × State) : State → List Event → List Reply
  | _, [] => []
  | state, event :: rest => (step state event).1 :: replies step (step state event).2 rest

def stateAfter (step : State → Event → Reply × State) (start : State) (events : List Event) :
    State :=
  events.foldl (fun state event => (step state event).2) start

variable {step : State → Event → Reply × State}

theorem stateAfter_concat (start : State) (past : List Event) (event : Event) :
    stateAfter step start (past ++ [event]) = (step (stateAfter step start past) event).2 := by
  rw [stateAfter, List.foldl_append, List.foldl_cons, List.foldl_nil, stateAfter]

theorem replies_concat (start : State) (past : List Event) (event : Event) :
    replies step start (past ++ [event]) =
      replies step start past ++ [(step (stateAfter step start past) event).1] := by
  induction past generalizing start with
  | nil => rfl
  | cons first rest ih =>
      rw [List.cons_append, replies, replies, ih]
      rfl

/-- An invariant over the answers so far and the state they left holds after every schedule,
once it holds at the start and every step extends it. -/
theorem replies_invariant (inv : List Reply → State → Prop) {start : State} (hstart : inv [] start)
    (hstep : ∀ past state event, inv past state →
      inv (past ++ [(step state event).1]) (step state event).2)
    (events : List Event) : inv (replies step start events) (stateAfter step start events) := by
  induction events using List.reverseRecOn with
  | nil => exact hstart
  | append_singleton past event ih =>
      rw [replies_concat, stateAfter_concat]
      exact hstep _ _ event ih

/-- Two states give the same answers to every schedule if each step answers related states
alike and keeps them related. -/
theorem replies_eq_of_related (related : State → State → Prop)
    (hstep : ∀ first second event, related first second →
      (step first event).1 = (step second event).1 ∧
        related (step first event).2 (step second event).2)
    {first second : State} (hrelated : related first second) (events : List Event) :
    replies step first events = replies step second events := by
  induction events generalizing first second with
  | nil => rfl
  | cons event rest ih =>
      obtain ⟨hreply, hnext⟩ := hstep first second event hrelated
      rw [replies, replies, hreply, ih hnext]

end Answers

/-! ## Histories -/

section Histories

variable {Entry : Type*} {law : List Entry → Entry → Prop} {history : List Entry}

/-- Every entry of a history stands in the law's relation to what came before it. -/
def EachAfter (law : List Entry → Entry → Prop) (history : List Entry) : Prop :=
  ∀ before entry after, history = before ++ entry :: after → law before entry

theorem eachAfter_nil : EachAfter law [] := by
  intro before entry after hsplit
  simp at hsplit

theorem EachAfter.concat (heach : EachAfter law history) {entry : Entry}
    (hlast : law history entry) : EachAfter law (history ++ [entry]) := by
  intro before other after hsplit
  rcases after.eq_nil_or_concat with rfl | ⟨front, last, rfl⟩
  · obtain ⟨rfl, hentry⟩ := List.append_inj' hsplit rfl
    obtain rfl := List.singleton_inj.mp hentry
    exact hlast
  · rw [List.concat_eq_append, ← List.cons_append, ← List.append_assoc] at hsplit
    exact heach before other front (List.append_inj' hsplit rfl).1

/-- What came after the last entry of a kind. -/
def sinceLast (p : Entry → Bool) (history : List Entry) : List Entry :=
  history.rtakeWhile fun entry => !p entry

@[simp] theorem sinceLast_nil (p : Entry → Bool) : sinceLast p [] = [] := rfl

theorem sinceLast_concat (p : Entry → Bool) (history : List Entry) (entry : Entry) :
    sinceLast p (history ++ [entry]) = if p entry then [] else sinceLast p history ++ [entry] := by
  rw [sinceLast, List.rtakeWhile_concat, ← sinceLast]
  cases p entry <;> rfl

end Histories

end Zicade.Foundation
