import Mathlib.Order.WellFounded
import Zicade.Foundation.Runs

/-! # Fair executions

An execution of a machine goes on for ever and may idle at any instant. Under weak
fairness towards the machine's own events, and with a clock that does not stand
still, a rank that own events lower and no event raises takes it to its goal.
-/

namespace Zicade.Foundation

variable {State Event : Type*}

/-- An endless execution; at an instant without an event the state stays. -/
structure Execution (step : State → Event → Option State) where
  states : ℕ → State
  events : ℕ → Option Event
  idles : ∀ n, events n = none → states (n + 1) = states n
  steps : ∀ n event, events n = some event → step (states n) event = some (states (n + 1))

variable {step : State → Event → Option State}

namespace Execution

variable (execution : Execution step)

/-- If steps of a kind stay possible, one is taken in the end. -/
def Fair (own : State → Event → Prop) : Prop :=
  ∀ n, (∀ m, n ≤ m → ∃ event, own (execution.states m) event ∧
      (step (execution.states m) event).isSome) →
    ∃ m, n ≤ m ∧ ∃ event, own (execution.states m) event ∧ execution.events m = some event

/-- The clock passes every time, unless the machine is done. -/
def Timely (clock : State → ℕ) (done : State → Prop) : Prop :=
  ∀ n time, ∃ m, n ≤ m ∧ (time ≤ clock (execution.states m) ∨ done (execution.states m))

variable {execution}

/-- A relation between the states of an execution holds along it, once it is reflexive and
transitive and every step is in it. -/
theorem related_of_le (related : State → State → Prop) (hrefl : ∀ state, related state state)
    (htrans : ∀ {a b c}, related a b → related b c → related a c) {n : ℕ}
    (hstep : ∀ m event, n ≤ m → execution.events m = some event →
      related (execution.states m) (execution.states (m + 1))) {m : ℕ} (hle : n ≤ m) :
    related (execution.states n) (execution.states m) := by
  induction m, hle using Nat.le_induction with
  | base => exact hrefl _
  | succ m hle ih =>
      refine htrans ih ?_
      cases hevent : execution.events m with
      | none =>
          rw [execution.idles m hevent]
          exact hrefl _
      | some event => exact hstep m event hle hevent

/-- What every step keeps holds from any instant on. -/
theorem invariant_of_le {inv : State → Prop}
    (hstep : ∀ {state event next}, inv state → step state event = some next → inv next)
    {n m : ℕ} (hle : n ≤ m) (hinv : inv (execution.states n)) : inv (execution.states m) :=
  execution.related_of_le (fun before after => inv before → inv after) (fun _ => id)
    (fun hfirst hsecond hbefore => hsecond (hfirst hbefore))
    (fun m event _ hevent hbefore => hstep hbefore (execution.steps m event hevent)) hle hinv

/-- The state at an instant is what the events before it lead to. -/
theorem exists_run (n : ℕ) :
    ∃ past, run step (execution.states 0) past = some (execution.states n) ∧
      ∀ event ∈ past, ∃ m, m < n ∧ execution.events m = some event := by
  induction n with
  | zero => exact ⟨[], rfl, nofun⟩
  | succ n ih =>
      obtain ⟨past, hrun, htaken⟩ := ih
      have hearlier : ∀ event ∈ past, ∃ m, m < n + 1 ∧ execution.events m = some event := by
        intro event hmem
        obtain ⟨m, hlt, hevent⟩ := htaken event hmem
        exact ⟨m, by omega, hevent⟩
      cases hevent : execution.events n with
      | none => exact ⟨past, by rw [hrun, execution.idles n hevent], hearlier⟩
      | some event =>
          refine ⟨past ++ [event], ?_, fun other hmem => ?_⟩
          · rw [run_append, hrun, Option.bind_some, run_cons, execution.steps n event hevent]
            rfl
          · rcases List.mem_append.mp hmem with hpast | hlast
            · exact hearlier other hpast
            · exact ⟨n, by omega, List.mem_singleton.mp hlast ▸ hevent⟩

end Execution

/-! ## Progress towards a goal -/

/-- A machine that works its way to a goal: no step raises the rank, its own steps lower it,
and short of the goal one of them is possible as soon as the clock has reached the
deadline, which only they put off. -/
structure Progresses {Rank : Type*} [Preorder Rank] (step : State → Event → Option State)
    (own : State → Event → Prop) (inv goal : State → Prop) (rank : State → Rank)
    (clock deadline : State → ℕ) : Prop where
  keeps : ∀ {state event next}, inv state → step state event = some next → inv next
  ranks : ∀ {state event next}, inv state → step state event = some next →
    rank next ≤ rank state
  lowers : ∀ {state event next}, inv state → own state event → step state event = some next →
    rank next < rank state
  ticks : ∀ {state event next}, inv state → step state event = some next →
    clock state ≤ clock next
  puts : ∀ {state event next}, inv state → ¬ own state event → step state event = some next →
    deadline next ≤ deadline state
  enabled : ∀ {state}, inv state → ¬ goal state → deadline state ≤ clock state →
    ∃ event, own state event ∧ (step state event).isSome

namespace Progresses

variable {Rank : Type*} [PartialOrder Rank] {own : State → Event → Prop} {inv goal : State → Prop}
  {rank : State → Rank} {clock deadline : State → ℕ} {execution : Execution step}

/-- A fair execution takes a step of its own, or reaches the goal. -/
theorem own_or_goal (hprogresses : Progresses step own inv goal rank clock deadline)
    (hfair : execution.Fair own) (htimely : execution.Timely clock goal) {n : ℕ}
    (hinv : inv (execution.states n)) :
    ∃ m, n ≤ m ∧ (goal (execution.states m) ∨
      ∃ event, own (execution.states m) event ∧ execution.events m = some event) := by
  by_contra hnever
  have hgoal : ∀ m, n ≤ m → ¬ goal (execution.states m) :=
    fun m hle hreached => hnever ⟨m, hle, .inl hreached⟩
  have hown : ∀ m event, n ≤ m → execution.events m = some event →
      ¬ own (execution.states m) event :=
    fun m event hle hevent htaken => hnever ⟨m, hle, .inr ⟨event, htaken, hevent⟩⟩
  have hkept : ∀ m, n ≤ m → inv (execution.states m) :=
    fun m hle => execution.invariant_of_le hprogresses.keeps hle hinv
  -- the deadline stands from here on, and the clock passes it
  have hdeadline : ∀ m, n ≤ m → deadline (execution.states m) ≤ deadline (execution.states n) :=
    fun m hle => execution.related_of_le (fun before after => deadline after ≤ deadline before)
      (fun _ => le_rfl) (fun hfirst hsecond => hsecond.trans hfirst)
      (fun m event hle hevent => hprogresses.puts (hkept m hle) (hown m event hle hevent)
        (execution.steps m event hevent)) hle
  obtain ⟨late, hlate, hpassed⟩ := htimely n (deadline (execution.states n))
  have htime : deadline (execution.states n) ≤ clock (execution.states late) :=
    hpassed.resolve_right (hgoal late hlate)
  have hclock : ∀ m, late ≤ m → clock (execution.states late) ≤ clock (execution.states m) :=
    fun m hle => execution.related_of_le (fun before after => clock before ≤ clock after)
      (fun _ => le_rfl) (fun hfirst hsecond => hfirst.trans hsecond)
      (fun m event hle hevent => hprogresses.ticks (hkept m (hlate.trans hle))
        (execution.steps m event hevent)) hle
  obtain ⟨m, hle, event, htaken, hevent⟩ := hfair late fun m hle =>
    hprogresses.enabled (hkept m (hlate.trans hle)) (hgoal m (hlate.trans hle))
      ((hdeadline m (hlate.trans hle)).trans (htime.trans (hclock m hle)))
  exact hown m event (hlate.trans hle) hevent htaken

/-- A fair execution of a machine that progresses reaches the goal. -/
theorem reaches [WellFoundedLT Rank]
    (hprogresses : Progresses step own inv goal rank clock deadline)
    (hfair : execution.Fair own) (htimely : execution.Timely clock goal) {n : ℕ}
    (hinv : inv (execution.states n)) : ∃ m, n ≤ m ∧ goal (execution.states m) := by
  induction hrank : rank (execution.states n) using WellFoundedLT.induction generalizing n with
  | ind current ih =>
      obtain ⟨m, hle, hgoal | ⟨event, hown, hevent⟩⟩ :=
        hprogresses.own_or_goal hfair htimely hinv
      · exact ⟨m, hle, hgoal⟩
      · have hkept : inv (execution.states m) :=
          execution.invariant_of_le hprogresses.keeps hle hinv
        have hlower : rank (execution.states m) ≤ rank (execution.states n) :=
          execution.related_of_le
            (fun before after => inv before → inv after ∧ rank after ≤ rank before)
            (fun _ hbefore => ⟨hbefore, le_rfl⟩)
            (fun hfirst hsecond hbefore =>
              ⟨(hsecond (hfirst hbefore).1).1,
                (hsecond (hfirst hbefore).1).2.trans (hfirst hbefore).2⟩)
            (fun m event _ hevent hbefore =>
              ⟨hprogresses.keeps hbefore (execution.steps m event hevent),
                hprogresses.ranks hbefore (execution.steps m event hevent)⟩) hle hinv |>.2
        have hstep := execution.steps m event hevent
        have hless := (hprogresses.lowers hkept hown hstep).trans_le hlower
        obtain ⟨last, hlast, hgoal⟩ :=
          ih _ (hrank ▸ hless) (hprogresses.keeps hkept hstep) rfl
        exact ⟨last, by omega, hgoal⟩

end Progresses

/-! ## Executions that end -/

namespace Execution

/-- A run as an execution that idles when it is over. -/
def ofRun {start final : State} (events : List Event)
    (hrun : run step start events = some final) : Execution step where
  states n := ((run step start (events.take n))).getD final
  events n := events[n]?
  idles n hover := by
    have hlength : events.length ≤ n := List.getElem?_eq_none_iff.mp hover
    rw [List.take_of_length_le hlength, List.take_of_length_le (by omega)]
  steps n event hevent := by
    obtain ⟨hlt, hget⟩ := List.getElem?_eq_some_iff.mp hevent
    have hsplit : events = events.take n ++ event :: events.drop (n + 1) := by
      rw [← hget, List.getElem_cons_drop hlt, List.take_append_drop]
    have hpast := hrun
    rw [hsplit, run_append] at hpast
    obtain ⟨middle, hmiddle, hrest⟩ := Option.bind_eq_some_iff.mp hpast
    rw [run_cons] at hrest
    obtain ⟨next, hnext, -⟩ := Option.bind_eq_some_iff.mp hrest
    have htake : events.take (n + 1) = events.take n ++ [event] := by
      rw [List.take_add_one, hevent, Option.toList_some]
    rw [htake, run_append, hmiddle, Option.bind_some, run_cons, hnext]
    exact hnext

variable {start final : State} {events : List Event} {hrun : run step start events = some final}

theorem ofRun_start : (ofRun events hrun).states 0 = start := rfl

theorem ofRun_final {n : ℕ} (hle : events.length ≤ n) : (ofRun events hrun).states n = final := by
  have htake : events.take n = events := List.take_of_length_le hle
  simp only [ofRun, htake, hrun, Option.getD_some]

/-- A run to a state without own steps is fair. -/
theorem ofRun_fair {own : State → Event → Prop}
    (hstuck : ∀ event, own final event → step final event = none) :
    (ofRun events hrun).Fair own := by
  intro n hpossible
  obtain ⟨event, hown, hsome⟩ := hpossible (max n events.length) (le_max_left _ _)
  rw [ofRun_final (le_max_right _ _)] at hown hsome
  rw [hstuck event hown] at hsome
  cases hsome

theorem ofRun_timely {clock : State → ℕ} {done : State → Prop} (hdone : done final) :
    (ofRun events hrun).Timely clock done := by
  intro n time
  refine ⟨max n events.length, le_max_left _ _, .inr ?_⟩
  rw [ofRun_final (le_max_right _ _)]
  exact hdone

end Execution

end Zicade.Foundation
