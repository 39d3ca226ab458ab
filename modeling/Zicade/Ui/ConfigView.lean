import Zicade.Control.Concurrent
import Zicade.Foundation.Runs

/-! # The settings view

A save applies the form on a background task. A save is ignored while another
one is running, so the applies of one view never overlap.
-/

namespace Zicade.Ui

open Zicade.Foundation Zicade.Schema Zicade.Control

/-- A view over a control handle; its applies are the first `begun` calls. -/
structure ConfigView where
  system : System Nat
  begun : Nat
  saving : Bool

/-- A press of the save button finds a form that is `ready` when it has changes
and reads as a config. -/
inductive ViewEvent
  | save (ready : Bool)
  | background (call : Nat) (outcome : WriteOutcome)
  | finished
  deriving DecidableEq, Repr

namespace ConfigView

def new (world : World) : ConfigView := { system := .initial world, begun := 0, saving := false }

/-- Does nothing without changes or while a save is already running. -/
def save (view : ConfigView) (ready : Bool) : ConfigView :=
  if view.saving || !ready then view
  else { view with begun := view.begun + 1, saving := true }

variable (setup : Setup) (edits : Nat → Config)

/-- The background task of a save takes a step of its apply; once that has
returned, the view is told. -/
def step (view : ConfigView) : ViewEvent → Option ConfigView
  | .save ready => some (view.save ready)
  | .background call outcome =>
      if view.begun ≤ call then none
      else match view.system.phases call with
        | .returned _ => none
        | _ => some { view with system := view.system.step setup edits (call, outcome) }
  | .finished =>
      if !view.saving then none
      else match view.system.phases (view.begun - 1) with
        | .returned _ => some { view with saving := false }
        | _ => none

end ConfigView

/-- The turns the calls took. -/
def turnsOf (events : List ViewEvent) : List (Nat × WriteOutcome) :=
  events.filterMap fun event =>
    match event with
    | .background call outcome => some (call, outcome)
    | .save _ => none
    | .finished => none

/-! ## One save at a time -/

/-- Only the last save begun can be running. -/
structure ConfigView.Guarded (view : ConfigView) : Prop where
  begun : view.saving = true → 0 < view.begun
  idle : ∀ call, view.begun ≤ call → view.system.phases call = .idle
  returned : ∀ call < view.begun, (view.saving = true ∧ call + 1 = view.begun) ∨
    ∃ result, view.system.phases call = .returned result

namespace ConfigView.Guarded

variable {view : ConfigView}

/-- While one call is under way, no other is. -/
theorem alone (hguarded : view.Guarded) {call other : Nat} (hcall : call + 1 = view.begun)
    (hother : other ≠ call) : (view.system.phases other).active = false := by
  by_cases hbegun : view.begun ≤ other
  · rw [hguarded.idle other hbegun]
    rfl
  · rcases hguarded.returned other (Nat.lt_of_not_le hbegun) with ⟨-, hlast⟩ | ⟨result, hresult⟩
    · omega
    · rw [hresult]
      rfl

/-- A call that has begun and not returned is the save that is running. -/
theorem last_of_running (hguarded : view.Guarded) {call : Nat} (hcall : call < view.begun)
    (hrunning : ∀ result, view.system.phases call ≠ .returned result) :
    view.saving = true ∧ call + 1 = view.begun := by
  rcases hguarded.returned call hcall with hlast | ⟨result, hresult⟩
  · exact hlast
  · exact absurd hresult (hrunning result)

theorem settled (hguarded : view.Guarded) (hidle : view.saving = false) :
    view.system.Settled := by
  intro call
  by_cases hbegun : view.begun ≤ call
  · rw [hguarded.idle call hbegun]
    rfl
  · rcases hguarded.returned call (Nat.lt_of_not_le hbegun) with ⟨hsaving, -⟩ | ⟨result, hresult⟩
    · rw [hidle] at hsaving
      cases hsaving
    · rw [hresult]
      rfl

end ConfigView.Guarded

/-- What one event does to a view: it changes nothing, begins a save, moves the
call that is running, or ends the save. -/
inductive ConfigView.Effect (setup : Setup) (edits : Nat → Config) (view : ConfigView) :
    ViewEvent → ConfigView → Prop
  | ignored (ready : Bool) : Effect setup edits view (.save ready) view
  | begins (hidle : view.saving = false) : Effect setup edits view (.save true)
      { view with begun := view.begun + 1, saving := true }
  | moves (call : Nat) (outcome : WriteOutcome) (hcall : call < view.begun)
      (hrunning : ∀ result, view.system.phases call ≠ .returned result) :
      Effect setup edits view (.background call outcome)
        { view with system := view.system.step setup edits (call, outcome) }
  | ends (result : Except ControlError Unit)
      (hreturned : view.system.phases (view.begun - 1) = .returned result) :
      Effect setup edits view .finished { view with saving := false }

section

variable {setup : Setup} {edits : Nat → Config}

theorem ConfigView.step_effect {view next : ConfigView} {event : ViewEvent}
    (hstep : view.step setup edits event = some next) : view.Effect setup edits event next := by
  cases event with
  | save ready =>
      obtain rfl : view.save ready = next := Option.some.inj hstep
      unfold save
      cases hsaving : view.saving with
      | true => exact .ignored ready
      | false =>
          cases ready with
          | true => exact .begins hsaving
          | false => exact .ignored false
  | background call outcome =>
      simp only [step] at hstep
      split at hstep
      next => cases hstep
      next hcall =>
        split at hstep
        next => cases hstep
        next hrunning =>
          obtain rfl := Option.some.inj hstep
          exact .moves call outcome (Nat.lt_of_not_le hcall) fun result hresult =>
            hrunning result hresult
  | finished =>
      simp only [step] at hstep
      split at hstep
      next => cases hstep
      next =>
        split at hstep
        next result hresult =>
          obtain rfl := Option.some.inj hstep
          exact .ends result hresult
        next => cases hstep

theorem ConfigView.guarded_step {view next : ConfigView} {event : ViewEvent}
    (hguarded : view.Guarded) (heffect : view.Effect setup edits event next) : next.Guarded := by
  cases heffect with
  | ignored ready => exact hguarded
  | begins hidle =>
      refine ⟨fun _ => Nat.succ_pos _, fun call hcall => ?_, fun call hcall => ?_⟩
      · exact hguarded.idle call (by dsimp only at hcall; omega)
      · by_cases hlast : call = view.begun
        · exact .inl ⟨rfl, by rw [hlast]⟩
        · rcases hguarded.returned call (by dsimp only at hcall; omega) with ⟨hsaving, -⟩ | hresult
          · rw [hidle] at hsaving
            cases hsaving
          · exact .inr hresult
  | moves call outcome hcall hrunning =>
      -- the call that moves is the last save begun, and the others keep their phase
      have hlast := hguarded.last_of_running hcall hrunning
      have hothers : ∀ other, other ≠ call →
          (view.system.step setup edits (call, outcome)).phases other =
            view.system.phases other := by
        intro other hother
        rw [System.step_phases, Function.update_of_ne hother]
      refine ⟨hguarded.begun, fun other hother => ?_, fun other hother => ?_⟩
      · have hne : other ≠ call := by
          dsimp only at hother
          omega
        exact (hothers other hne).trans (hguarded.idle other hother)
      · by_cases hsame : other = call
        · exact .inl ⟨hlast.1, by rw [hsame]; exact hlast.2⟩
        · refine (hguarded.returned other hother).imp id ?_
          rintro ⟨result, hresult⟩
          exact ⟨result, (hothers other hsame).trans hresult⟩
  | ends result hreturned =>
      refine ⟨fun hsaving => (by cases hsaving), hguarded.idle, fun call hcall => .inr ?_⟩
      rcases hguarded.returned call hcall with ⟨-, hlast⟩ | hresult
      · refine ⟨result, ?_⟩
        have hcall' : call = view.begun - 1 := by omega
        rw [hcall']
        exact hreturned
      · exact hresult

end

/-! ## The applies of one view -/

section

variable (setup : Setup) (edits : Nat → Config)

/-- The applies of a view are a schedule of its calls, and they do not overlap. -/
structure ConfigView.Serial (world : World) (past : List ViewEvent) (view : ConfigView) :
    Prop where
  guarded : view.Guarded
  system : view.system = interleave setup edits (.initial world) (turnsOf past)
  serial : (∀ turn ∈ turnsOf past, turn.2.intact = true) →
    OneAtATime setup edits (.initial world) (turnsOf past)

theorem ConfigView.serial_new (world : World) :
    (ConfigView.new world).Serial setup edits world [] := by
  refine ⟨⟨fun hsaving => ?_, fun _ _ => rfl, fun call hcall => ?_⟩, rfl, fun _ => trivial⟩
  · cases hsaving
  · exact absurd hcall (Nat.not_lt_zero call)

/-- A call takes a turn only while no other is under way. -/
theorem ConfigView.serial_step {world : World} {past : List ViewEvent} {view next : ConfigView}
    {event : ViewEvent} (hserial : view.Serial setup edits world past)
    (heffect : view.Effect setup edits event next) :
    next.Serial setup edits world (past ++ [event]) := by
  have hguarded := guarded_step hserial.guarded heffect
  obtain ⟨hbefore, hsystem, hturns⟩ := hserial
  cases heffect with
  | ignored ready =>
      exact ⟨hguarded, by simpa [turnsOf] using hsystem, by simpa [turnsOf] using hturns⟩
  | begins hidle =>
      exact ⟨hguarded, by simpa [turnsOf] using hsystem, by simpa [turnsOf] using hturns⟩
  | ends result hreturned =>
      exact ⟨hguarded, by simpa [turnsOf] using hsystem, by simpa [turnsOf] using hturns⟩
  | moves call outcome hcall hrunning =>
      have hturn : turnsOf (past ++ [.background call outcome]) =
          turnsOf past ++ [(call, outcome)] := by simp [turnsOf]
      have hlast := (hbefore.last_of_running hcall hrunning).2
      refine ⟨hguarded, ?_, fun hintact => ?_⟩
      · rw [hturn, interleave, List.foldl_append, hsystem]
        rfl
      · rw [hturn] at hintact ⊢
        refine (oneAtATime_concat setup edits).mpr ⟨?_, ?_, hintact _ (by simp)⟩
        · exact hturns fun turn hmem => hintact turn (List.mem_append_left _ hmem)
        · intro other hother
          rw [← hsystem]
          exact hbefore.alone hlast hother

/-- However a view is used, once no save is running its saves have left one
consistent config, if their writes went well or failed before the file was
touched. -/
theorem configView_consistent {world : World} {events : List ViewEvent} {view : ConfigView}
    (hrun : run (ConfigView.step setup edits) (.new world) events = some view)
    (hintact : ∀ turn ∈ turnsOf events, turn.2.intact = true) (hidle : view.saving = false) :
    System.Consistent setup edits world view.system := by
  have hserial : view.Serial setup edits world events :=
    run_history_invariant (fun past view => view.Serial setup edits world past)
      (ConfigView.serial_new setup edits world)
      (fun _ _ _ _ hserial hstep =>
        ConfigView.serial_step setup edits hserial (ConfigView.step_effect hstep)) hrun
  obtain ⟨base, hserialized⟩ := serialized_interleave setup edits (turnsOf events)
    (serialized_initial setup edits world) (hserial.serial hintact)
  rw [← hserial.system] at hserialized
  exact hserialized.consistent_of_settled setup edits (hserial.guarded.settled hidle)

/-- A second press while the first save is running begins nothing. -/
example : (run (ConfigView.step appSetup fun _ => {}) (.new (worldOf {}))
    [.save true, .background 0 .done, .save true]).map (·.begun) = some 1 := by decide +kernel

end

end Zicade.Ui
