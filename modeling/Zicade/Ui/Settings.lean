import Zicade.Control.Concurrent
import Zicade.Control.Secrets
import Zicade.Foundation.Runs
import Zicade.Ui.Fields

/-! # The settings page

Edits are measured against the form of what the proxy runs with. A save reads the widgets
once, applies what they read as in the background, and shows the running config again when
the apply has gone well. A page can be opened while the save of a closed one still runs, so
applies also come from elsewhere, one at a time.
-/

namespace Zicade.Ui

open Zicade.Foundation Zicade.Schema Zicade.Control

/-- The outcome of the last save, shown beside the buttons. -/
inductive SaveOutcome
  | saved
  | failed (reason : String)
  deriving DecidableEq, Repr

/-- The background task of a save. -/
inductive Applying
  | queued (config : Config)
  | returned (result : Except ControlError Unit)
  deriving DecidableEq, Repr

/-- The user edits, saves and discards; the apply of a save runs, and then the page is
told. The apply of another page runs without it. -/
inductive SettingsEvent
  | type (text : Text) (field : TextField)
  | pick (row : Nat) (field : ChoiceField)
  | switch (on : Bool)
  | save
  | discard
  | applies (outcome : Control.WriteOutcome)
  | finished
  | elsewhere (edit : Config) (outcome : Control.WriteOutcome)
  deriving DecidableEq, Repr

/-- The page and the world it applies to. -/
structure SettingsView where
  world : World
  fields : Fields
  saved : ConfigForm
  corpEnabled : Bool
  saving : Bool := false
  outcome : Option SaveOutcome := none
  task : Option Applying := none
  deriving DecidableEq, Repr

namespace SettingsView

def new (world : World) : SettingsView :=
  let saved := ConfigForm.fromConfig world.configRedacted
  { world, fields := .build saved, saved, corpEnabled := saved.corpEnabled }

/-- The widgets as the form model. -/
def form (view : SettingsView) : ConfigForm := view.fields.read view.corpEnabled

/-- Whether the form differs from what the proxy is running with. -/
def hasChanges (view : SettingsView) : Bool := view.form ≠ view.saved

/-- Throw away edits and show the config the proxy is running with. -/
def reload (view : SettingsView) : SettingsView :=
  let saved := ConfigForm.fromConfig view.world.configRedacted
  { view with
    saved
    fields := view.fields.load saved
    corpEnabled := saved.corpEnabled
    outcome := none }

/-- Does nothing without changes or while a save is already running. -/
def save (view : SettingsView) : SettingsView :=
  if view.saving || !view.hasChanges then view
  else
    match view.form.toConfig with
    | .error err => { view with outcome := some (.failed err.display) }
    | .ok config =>
        { view with saving := true, outcome := none, task := some (.queued config) }

/-- The page is told how its apply went. -/
def finish (view : SettingsView) (result : Except ControlError Unit) : SettingsView :=
  let view := { view with saving := false, task := none }
  match result with
  | .ok () => { view.reload with outcome := some .saved }
  | .error err => { view with outcome := some (.failed err.display) }

variable (setup : Setup)

def step (view : SettingsView) : SettingsEvent → Option SettingsView
  | .type text field => some { view with fields := view.fields.type text field }
  | .pick row field =>
      if row < field.options.length then
        some { view with fields := view.fields.selectRow row field }
      else none
  | .switch on => some { view with corpEnabled := on }
  | .save => some view.save
  -- the button is disabled while saving and without changes
  | .discard => if view.saving || !view.hasChanges then none else some view.reload
  | .applies outcome =>
      match view.task with
      | some (.queued config) =>
          let applied := apply setup view.world config outcome
          some { view with world := applied.2, task := some (.returned applied.1) }
      | _ => none
  | .finished =>
      match view.task with
      | some (.returned result) => some (view.finish result)
      | _ => none
  | .elsewhere edit outcome =>
      some { view with world := (apply setup view.world edit outcome).2 }

end SettingsView

/-- The status beside the buttons. -/
inductive Footer
  | saving
  | failed (reason : String)
  | unsavedChanges
  | saved
  | blank
  deriving DecidableEq, Repr

def Footer.text : Footer → String
  | .saving => "Saving…"
  | .failed reason => reason
  | .unsavedChanges => "Unsaved changes"
  | .saved => "Saved and applied."
  | .blank => ""

/-- What `ConfigView::actions` shows. -/
def SettingsView.footer (view : SettingsView) : Footer :=
  match view.outcome, view.saving, view.hasChanges with
  | _, true, _ => .saving
  | some (.failed reason), _, _ => .failed reason
  | _, _, true => .unsavedChanges
  | some .saved, _, false => .saved
  | none, _, false => .blank

/-- Whether the two buttons can be pressed. -/
def SettingsView.enabled (view : SettingsView) : Bool := !(view.saving || !view.hasChanges)

/-! ## The page without its widgets -/

/-- What the page is for: a draft of the form beside the form of the running config. -/
structure Draft where
  world : World
  saved : ConfigForm
  form : ConfigForm
  outcome : Option SaveOutcome
  pending : Option Applying
  deriving DecidableEq, Repr

namespace Draft

/-- A draft of the running config as it is. -/
def fresh (world : World) (outcome : Option SaveOutcome) : Draft :=
  let running := ConfigForm.fromConfig world.configRedacted
  { world, saved := running, form := running, outcome, pending := none }

variable (setup : Setup)

def step (draft : Draft) : SettingsEvent → Option Draft
  | .type text field => some { draft with form := draft.form.type text field }
  | .pick row field =>
      if row < field.options.length then some { draft with form := draft.form.pickRow row field }
      else none
  | .switch on => some { draft with form := { draft.form with corpEnabled := on } }
  | .save =>
      if draft.pending ≠ none ∨ draft.form = draft.saved then some draft
      else
        match draft.form.toConfig with
        | .error err => some { draft with outcome := some (.failed err.display) }
        | .ok config => some { draft with outcome := none, pending := some (.queued config) }
  | .discard =>
      if draft.pending ≠ none ∨ draft.form = draft.saved then none
      else some (fresh draft.world none)
  | .applies outcome =>
      match draft.pending with
      | some (.queued config) =>
          let applied := apply setup draft.world config outcome
          some { draft with world := applied.2, pending := some (.returned applied.1) }
      | _ => none
  | .finished =>
      match draft.pending with
      | some (.returned (.ok ())) => some (fresh draft.world (some .saved))
      | some (.returned (.error err)) =>
          some { draft with outcome := some (.failed err.display), pending := none }
      | _ => none
  | .elsewhere edit outcome =>
      some { draft with world := (apply setup draft.world edit outcome).2 }

end Draft

/-- The draft that the widgets hold. -/
def SettingsView.draft (view : SettingsView) : Draft where
  world := view.world
  saved := view.saved
  form := view.form
  outcome := view.outcome
  pending := view.task

namespace SettingsView

/-- A save is running while it has a task. -/
def Guarded (view : SettingsView) : Prop := view.saving = view.task.isSome

/-- The running config is read from the widgets it was put into. -/
theorem form_reload (view : SettingsView) :
    view.reload.form = ConfigForm.fromConfig view.world.configRedacted := by
  rw [form, reload]
  dsimp only
  rw [Fields.load_eq_build, Fields.read_build, World.configRedacted,
    ConfigForm.cleared_fromConfig]

theorem form_new (world : World) :
    (new world).form = ConfigForm.fromConfig world.configRedacted := by
  rw [form, new]
  dsimp only
  rw [Fields.read_build, World.configRedacted, ConfigForm.cleared_fromConfig]

theorem draft_new (world : World) : (new world).draft = .fresh world none := by
  rw [draft, form_new]
  rfl

theorem draft_reload {view : SettingsView} (hidle : view.task = none) :
    view.reload.draft = .fresh view.world none := by
  rw [draft, form_reload]
  exact congrArg (Draft.mk _ _ _ _) hidle

theorem draft_finish_ok (view : SettingsView) :
    (view.finish (.ok ())).draft = .fresh view.world (some .saved) := by
  have hform := form_reload { view with saving := false, task := none }
  rw [draft]
  exact congrArg (fun shown => Draft.mk _ _ shown _ _) hform

theorem hasChanges_iff {view : SettingsView} : view.hasChanges = true ↔ view.form ≠ view.saved :=
  decide_eq_true_iff

section Steps

variable {setup : Setup} {view next : SettingsView} {event : SettingsEvent}

/-- What one event does to the page. -/
inductive Effect (setup : Setup) (view : SettingsView) : SettingsEvent → SettingsView → Prop
  | edited (event : SettingsEvent) (fields : Fields) (corpEnabled : Bool)
      (hpool : fields.pool = view.fields.pool) :
      Effect setup view event { view with fields, corpEnabled }
  | ignored : Effect setup view .save view
  | refused (err : FormError) (hidle : view.saving = false)
      (hread : view.form.toConfig = .error err) :
      Effect setup view .save { view with outcome := some (.failed err.display) }
  | begins (config : Config) (hidle : view.saving = false) (hchanged : view.form ≠ view.saved)
      (hread : view.form.toConfig = .ok config) :
      Effect setup view .save
        { view with saving := true, outcome := none, task := some (.queued config) }
  | discards (hidle : view.saving = false) : Effect setup view .discard view.reload
  | applies (outcome : Control.WriteOutcome) (config : Config)
      (hqueued : view.task = some (.queued config)) :
      Effect setup view (.applies outcome)
        { view with
          world := (apply setup view.world config outcome).2
          task := some (.returned (apply setup view.world config outcome).1) }
  | ends (result : Except ControlError Unit) (hreturned : view.task = some (.returned result)) :
      Effect setup view .finished (view.finish result)
  | elsewhere (edit : Config) (outcome : Control.WriteOutcome) :
      Effect setup view (.elsewhere edit outcome)
        { view with world := (apply setup view.world edit outcome).2 }

theorem save_effect (view : SettingsView) : Effect setup view .save view.save := by
  unfold save
  split
  next => exact .ignored
  next hready =>
    rw [Bool.or_eq_true, not_or, Bool.not_eq_true, Bool.not_eq_true, Bool.not_eq_false'] at hready
    split
    next err hread => exact .refused err hready.1 hread
    next config hread => exact .begins config hready.1 (hasChanges_iff.mp hready.2) hread

theorem step_effect (hstep : view.step setup event = some next) :
    view.Effect setup event next := by
  cases event with
  | type text field =>
      obtain rfl := Option.some.inj hstep
      exact .edited _ _ _ (by cases field <;> rfl)
  | pick row field =>
      simp only [step] at hstep
      split at hstep
      next =>
        obtain rfl := Option.some.inj hstep
        exact .edited _ _ _ (by cases field <;> rfl)
      next => cases hstep
  | switch on =>
      obtain rfl := Option.some.inj hstep
      exact .edited _ _ _ rfl
  | save =>
      obtain rfl := Option.some.inj hstep
      exact save_effect view
  | discard =>
      simp only [step] at hstep
      split at hstep
      next => cases hstep
      next hready =>
        obtain rfl := Option.some.inj hstep
        rw [Bool.or_eq_true, not_or, Bool.not_eq_true] at hready
        exact .discards hready.1
  | applies outcome =>
      simp only [step] at hstep
      split at hstep
      next config hqueued =>
        obtain rfl := Option.some.inj hstep
        exact .applies outcome config hqueued
      next => cases hstep
  | finished =>
      simp only [step] at hstep
      split at hstep
      next result hreturned =>
        obtain rfl := Option.some.inj hstep
        exact .ends result hreturned
      next => cases hstep
  | elsewhere edit outcome =>
      obtain rfl := Option.some.inj hstep
      exact .elsewhere edit outcome

theorem guarded_new (world : World) : (new world).Guarded := rfl

theorem guarded_step (hguarded : view.Guarded) (heffect : view.Effect setup event next) :
    next.Guarded := by
  cases heffect with
  | edited event fields corpEnabled hpool => exact hguarded
  | ignored => exact hguarded
  | refused err hidle hread => exact hguarded
  | begins config hidle hchanged hread => rfl
  | discards hidle => exact hguarded
  | applies outcome config hqueued =>
      have hsaving : view.saving = true := by rw [hguarded, hqueued, Option.isSome_some]
      exact hsaving
  | ends result hreturned =>
      cases result with
      | ok => rfl
      | error err => rfl
  | elsewhere edit outcome => exact hguarded

end Steps

/-! ## The widgets hold the draft -/

/-- The buttons are disabled alike. -/
theorem busy_iff {view : SettingsView} (hguarded : view.Guarded) :
    (view.saving || !view.hasChanges) = true ↔
      view.draft.pending ≠ none ∨ view.draft.form = view.draft.saved := by
  rw [Bool.or_eq_true, hguarded, ← Option.ne_none_iff_isSome, Bool.not_eq_true',
    ← Bool.not_eq_true, hasChanges_iff, not_not]
  rfl

/-- A save of the page is a save of its draft. -/
theorem draft_save (setup : Setup) {view : SettingsView} (hguarded : view.Guarded) :
    some view.save.draft = view.draft.step setup .save := by
  simp only [save, Draft.step]
  by_cases hbusy : (view.saving || !view.hasChanges) = true
  · rw [if_pos hbusy, if_pos ((busy_iff hguarded).mp hbusy)]
  · rw [if_neg hbusy, if_neg (mt (busy_iff hguarded).mpr hbusy)]
    have hform : view.draft.form = view.form := rfl
    rw [hform]
    cases view.form.toConfig with
    | error err => rfl
    | ok config => rfl

/-- Each event does to the draft of the page what it does to a draft. -/
theorem draft_step (setup : Setup) {view : SettingsView} (hguarded : view.Guarded)
    (event : SettingsEvent) :
    (view.step setup event).map draft = view.draft.step setup event := by
  have hpending : view.draft.pending = view.task := rfl
  cases event with
  | type text field =>
      have hread := view.fields.read_type text field view.corpEnabled
      exact congrArg (fun shown => some (Draft.mk _ _ shown _ _)) hread
  | pick row field =>
      simp only [step, Draft.step]
      split_ifs with hrow
      · have hread := view.fields.read_selectRow hrow view.corpEnabled
        exact congrArg (fun shown => some (Draft.mk _ _ shown _ _)) hread
      · rfl
  | switch on => rfl
  | save => exact draft_save setup hguarded
  | discard =>
      simp only [step, Draft.step]
      by_cases hbusy : (view.saving || !view.hasChanges) = true
      · rw [if_pos hbusy, if_pos ((busy_iff hguarded).mp hbusy)]
        rfl
      · rw [if_neg hbusy, if_neg (mt (busy_iff hguarded).mpr hbusy)]
        obtain ⟨hidle, -⟩ := not_or.mp (mt (busy_iff hguarded).mpr hbusy)
        exact congrArg some (draft_reload (not_not.mp hidle))
  | applies outcome =>
      simp only [step, Draft.step]
      rw [hpending]
      cases htask : view.task with
      | none => rfl
      | some task =>
          cases task with
          | queued config => rfl
          | returned result => rfl
  | finished =>
      simp only [step, Draft.step]
      rw [hpending]
      cases htask : view.task with
      | none => rfl
      | some task =>
          cases task with
          | queued config => rfl
          | returned result =>
              cases result with
              | ok => exact congrArg some (draft_finish_ok view)
              | error err => rfl
  | elsewhere edit outcome => rfl

/-- However the page is used, its widgets read as a draft that took the same events: each
text and each drop-down holds what was last put into it, by the user or from the config. -/
theorem settings_refine_draft (setup : Setup) (world : World) (events : List SettingsEvent) :
    (run (step setup) (new world) events).map draft =
      run (Draft.step setup) (.fresh world none) events := by
  rw [← draft_new]
  exact run_map Guarded (fun _ _ _ hguarded hstep => guarded_step hguarded (step_effect hstep))
    (fun _ event hguarded => draft_step setup hguarded event) (guarded_new world) events

/-! ## What the page tells -/

/-- After an apply that went well, the file, the hook and the status follow the config. -/
theorem agrees_apply {setup : Setup} {world : World} {edit : Config}
    {outcome : Control.WriteOutcome} (hok : (apply setup world edit outcome).1 = .ok ()) :
    (apply setup world edit outcome).2.Agrees setup
      (apply setup world edit outcome).2.config := by
  obtain ⟨disk, hnext⟩ := apply_ok hok
  have hdisk : ∃ text, setup.serialize (edit.keepSecretsFrom world.config) = .ok text ∧
      disk = some (asBytes text) := by
    unfold apply at hok hnext
    dsimp only at hok hnext
    split at hok
    next => cases hok
    next hvalid =>
      rw [hvalid] at hnext
      dsimp only at hnext
      rcases saveFile_cases setup (edit.keepSecretsFrom world.config) outcome world.disk with
        ⟨err, hsave, -⟩ | ⟨text, htext, -, hsave⟩ | ⟨text, written, err, -, -, hsave⟩
      · rw [hsave] at hok
        cases hok
      · rw [hsave] at hnext
        have hwritten := congrArg World.disk hnext
        refine ⟨text, htext, hwritten.symm.trans ?_⟩
        dsimp only
        unfold World.runHook
        split <;> rfl
      · rw [hsave] at hok
        cases hok
  rw [hnext]
  refine ⟨hdisk, fun hhook => ?_, rfl, rfl⟩
  dsimp only
  rw [if_pos hhook, List.getLast?_concat]

/-- No apply from elsewhere changes anything. -/
def Alone (setup : Setup) (view : SettingsView) : SettingsEvent → Prop
  | .elsewhere edit outcome => (apply setup view.world edit outcome).2 = view.world
  | _ => True

instance (setup : Setup) (view : SettingsView) (event : SettingsEvent) :
    Decidable (view.Alone setup event) := by
  unfold Alone
  cases event <;> infer_instance

/-- What holds of the page while nothing else applies. -/
structure Sound (setup : Setup) (pool : PoolConfig) (view : SettingsView) : Prop where
  guarded : view.Guarded
  quiet : view.task ≠ none → view.outcome = none
  shown : ∃ config : Config, view.saved = .fromConfig config.withoutSecrets
  baseline : view.task ≠ some (.returned (.ok ())) →
    view.saved = .fromConfig view.world.configRedacted
  agrees : view.outcome = some .saved ∨ view.task = some (.returned (.ok ())) →
    view.world.Agrees setup view.world.config
  fieldsPool : view.fields.pool = pool
  runningPool : view.world.config.routing.pool = pool
  queuedPool : ∀ config, view.task = some (.queued config) → config.routing.pool = pool

theorem sound_new (setup : Setup) (world : World) :
    (new world).Sound setup world.config.routing.pool := by
  refine ⟨rfl, fun _ => rfl, ⟨world.config, rfl⟩, fun _ => rfl, ?_, rfl, rfl, ?_⟩
  · rintro (hsaved | hreturned)
    · cases hsaved
    · cases hreturned
  · intro config hqueued
    cases hqueued

/-- The pool settings of a form are those of its config. -/
theorem pool_toConfig {form : ConfigForm} {config : Config} (hread : form.toConfig = .ok config) :
    config.routing.pool = form.pool := by
  obtain ⟨port, -, hread⟩ := bind_eq_ok.mp hread
  obtain ⟨upstream, -, hread⟩ := bind_eq_ok.mp hread
  obtain ⟨corpNetwork, -, hread⟩ := bind_eq_ok.mp hread
  obtain rfl := Except.ok.inj hread
  rfl

section Steps

variable {setup : Setup} {pool : PoolConfig} {view next : SettingsView} {event : SettingsEvent}

/-- Showing the running config again. -/
theorem Sound.reload (hsound : view.Sound setup pool) (hidle : view.task = none)
    (outcome : Option SaveOutcome)
    (hagrees : outcome = some .saved → view.world.Agrees setup view.world.config) :
    Sound setup pool { view.reload with outcome } := by
  obtain ⟨hguarded, hquiet, -, -, -, -, hrunning, -⟩ := hsound
  refine ⟨hguarded, fun hbusy => absurd hidle hbusy, ⟨view.world.config, rfl⟩, fun _ => rfl, ?_,
    hrunning, hrunning, fun config hqueued => ?_⟩
  · rintro (hsaved | hreturned)
    · exact hagrees hsaved
    · exact absurd (hidle.symm.trans hreturned) (Option.some_ne_none _).symm
  · exact absurd (hidle.symm.trans hqueued) (Option.some_ne_none _).symm

/-- An apply that goes wrong leaves the running config, and one that goes well makes what
it says true. -/
theorem Sound.applies (hsound : view.Sound setup pool) {config : Config}
    (hqueued : view.task = some (.queued config)) (outcome : Control.WriteOutcome) :
    Sound setup pool
      { view with
        world := (apply setup view.world config outcome).2
        task := some (.returned (apply setup view.world config outcome).1) } := by
  have hbusy : view.task ≠ none := by rw [hqueued]; exact Option.some_ne_none _
  have hnone := hsound.quiet hbusy
  have hsaving : view.saving = true := by rw [hsound.guarded, hqueued, Option.isSome_some]
  have hstill : view.saved = .fromConfig view.world.configRedacted :=
    hsound.baseline (by rw [hqueued]; exact fun heq => by cases heq)
  cases hanswer : (apply setup view.world config outcome).1 with
  | error err =>
      have hworld := apply_error hanswer
      refine ⟨hsaving, fun _ => hnone, hsound.shown, fun _ => ?_, ?_, hsound.fieldsPool, ?_, ?_⟩
      · dsimp only
        rw [hworld]
        exact hstill
      · rintro (hsaved | hreturned)
        · exact absurd (hnone.symm.trans hsaved) (Option.some_ne_none _).symm
        · cases hreturned
      · dsimp only
        rw [hworld]
        exact hsound.runningPool
      · intro other hother
        cases hother
  | ok =>
      obtain ⟨disk, hworld⟩ := apply_ok hanswer
      refine ⟨hsaving, fun _ => hnone, hsound.shown, fun hother => absurd rfl hother,
        fun _ => agrees_apply hanswer, hsound.fieldsPool, ?_, ?_⟩
      · dsimp only
        rw [hworld]
        exact hsound.queuedPool config hqueued
      · intro other hother
        cases hother

theorem sound_step (hsound : view.Sound setup pool) (halone : view.Alone setup event)
    (heffect : view.Effect setup event next) : next.Sound setup pool := by
  have hguarded := guarded_step hsound.guarded heffect
  have idle_of (hidle : view.saving = false) : view.task = none := by
    rw [hsound.guarded] at hidle
    exact Option.not_isSome_iff_eq_none.mp (by rw [hidle]; exact Bool.false_ne_true)
  cases heffect with
  | edited event fields corpEnabled hpool =>
      obtain ⟨-, hquiet, hshown, hbaseline, hagrees, hfields, hrunning, hqueued⟩ := hsound
      exact ⟨hguarded, hquiet, hshown, hbaseline, hagrees, hpool.trans hfields, hrunning,
        hqueued⟩
  | ignored => exact hsound
  | refused err hidle hread =>
      obtain ⟨-, -, hshown, hbaseline, hagrees, hfields, hrunning, hqueued⟩ := hsound
      refine ⟨hguarded, fun hbusy => absurd (idle_of hidle) hbusy, hshown, hbaseline, ?_, hfields,
        hrunning, hqueued⟩
      rintro (hsaved | hreturned)
      · cases hsaved
      · exact hagrees (.inr hreturned)
  | begins config hidle hchanged hread =>
      have hstill := hsound.baseline (by rw [idle_of hidle]; exact (Option.some_ne_none _).symm)
      refine ⟨hguarded, fun _ => rfl, hsound.shown, fun _ => hstill, ?_, hsound.fieldsPool,
        hsound.runningPool, ?_⟩
      · rintro (hsaved | hreturned)
        · cases hsaved
        · cases hreturned
      · rintro _ ⟨⟩
        exact (pool_toConfig hread).trans hsound.fieldsPool
  | discards hidle =>
      exact hsound.reload (idle_of hidle) none fun hsaved => (by cases hsaved)
  | applies outcome config hqueued => exact hsound.applies hqueued outcome
  | ends result hreturned =>
      obtain ⟨-, -, hshown, hbaseline, hagrees, hfields, hrunning, -⟩ := hsound
      cases result with
      | ok =>
          have hagrees := hagrees (.inr hreturned)
          refine ⟨hguarded, fun hbusy => absurd rfl hbusy, ⟨view.world.config, rfl⟩, fun _ => rfl,
            fun _ => hagrees, hrunning, hrunning, fun config hqueued => ?_⟩
          cases hqueued
      | error err =>
          have hstill := hbaseline (by rw [hreturned]; exact fun heq => (by cases heq))
          refine ⟨hguarded, fun hbusy => absurd rfl hbusy, hshown, fun _ => hstill, ?_, hfields,
            hrunning, fun config hqueued => ?_⟩
          · rintro (hsaved | hreturned)
            · cases hsaved
            · cases hreturned
          · cases hqueued
  | elsewhere edit outcome =>
      simp only [Alone] at halone
      rw [halone]
      exact hsound

end Steps

/-- The page tells the truth about the running config: what it says is saved and applied is
on screen, in memory, in the file and with the hook; without changes it shows the running
config, and its buttons can be pressed exactly when it shows something else. -/
structure Honest (setup : Setup) (start : World) (view : SettingsView) : Prop where
  saved : view.footer = .saved → view.form = .fromConfig view.world.configRedacted ∧
    view.world.Agrees setup view.world.config
  blank : view.footer = .blank → view.form = .fromConfig view.world.configRedacted
  enabled : view.enabled = true ↔
    view.saving = false ∧ view.form ≠ .fromConfig view.world.configRedacted
  noPasswords : view.saved.cleared = view.saved
  pool : view.world.config.routing.pool = start.config.routing.pool

section

variable {setup : Setup} {pool : PoolConfig} {view : SettingsView}

theorem form_eq_saved (hchanges : view.hasChanges = false) : view.form = view.saved := by
  by_contra hne
  rw [hasChanges_iff.mpr hne] at hchanges
  cases hchanges

theorem footer_saved (hfooter : view.footer = .saved) :
    view.outcome = some .saved ∧ view.saving = false ∧ view.form = view.saved := by
  unfold footer at hfooter
  split at hfooter
  next => cases hfooter
  next => cases hfooter
  next => cases hfooter
  next houtcome hchanges hsaving =>
    exact ⟨houtcome, Bool.eq_false_iff.mpr hsaving, form_eq_saved hchanges⟩
  next => cases hfooter

theorem footer_blank (hfooter : view.footer = .blank) :
    view.saving = false ∧ view.form = view.saved := by
  unfold footer at hfooter
  split at hfooter
  next => cases hfooter
  next => cases hfooter
  next => cases hfooter
  next => cases hfooter
  next hchanges hsaving => exact ⟨Bool.eq_false_iff.mpr hsaving, form_eq_saved hchanges⟩

/-- While no save runs, edits are measured against the running config. -/
theorem Sound.saved_eq (hsound : view.Sound setup pool) (hidle : view.saving = false) :
    view.saved = .fromConfig view.world.configRedacted := by
  refine hsound.baseline fun hreturned => ?_
  rw [hsound.guarded, hreturned] at hidle
  cases hidle

theorem Sound.honest {start : World} (hsound : view.Sound setup start.config.routing.pool) :
    view.Honest setup start := by
  refine ⟨fun hfooter => ?_, fun hfooter => ?_, ?_, ?_, hsound.runningPool⟩
  · obtain ⟨houtcome, hidle, hform⟩ := footer_saved hfooter
    exact ⟨hform.trans (hsound.saved_eq hidle), hsound.agrees (.inl houtcome)⟩
  · obtain ⟨hidle, hform⟩ := footer_blank hfooter
    exact hform.trans (hsound.saved_eq hidle)
  · rw [enabled, Bool.not_eq_true', Bool.or_eq_false_iff, Bool.not_eq_false', hasChanges_iff]
    refine and_congr_right fun hidle => ?_
    rw [hsound.saved_eq hidle]
  · obtain ⟨config, hsaved⟩ := hsound.shown
    rw [hsaved, ConfigForm.cleared_fromConfig]

/-- However the page is used, it is honest about the running config, as long as no apply from
elsewhere changes it. -/
theorem settings_honest {start : World} {events : List SettingsEvent}
    (halone : StepsMeet (step setup) (Alone setup) (new start) events)
    (hrun : run (step setup) (new start) events = some view) : view.Honest setup start := by
  have hsound : view.Sound setup start.config.routing.pool :=
    run_invariant_of_stepsMeet (Sound setup start.config.routing.pool)
      (fun _ _ _ hsound halone hstep => sound_step hsound halone (step_effect hstep))
      (sound_new setup start) halone hrun
  exact hsound.honest

end

/-- An upstream is filled in and saved, the user types on meanwhile, and another page applies
last. -/
def sampleSave (elsewhere : Config) : List SettingsEvent :=
  [.pick 1 .mode, .type "proxy.example".toList .upstreamHost, .type "8080".toList .upstreamPort,
    .save, .type "0.0.0.0".toList .listenHost, .applies .done, .finished,
    .elsewhere elsewhere .done]

/-- No config validates with it. -/
def portless : Config := { listen := { port := 0 } }

theorem settings_honest_sampleSave :
    ∃ view, run (step appSetup) (new (worldOf {})) (sampleSave portless) = some view ∧
      view.footer = .saved ∧ view.Honest appSetup (worldOf {}) := by
  have hshown : (run (step appSetup) (new (worldOf {})) (sampleSave portless)).map footer =
      some .saved := by decide +kernel
  have halone : StepsMeet (step appSetup) (Alone appSetup) (new (worldOf {}))
      (sampleSave portless) := by decide +kernel
  obtain ⟨view, hrun, hfooter⟩ := Option.map_eq_some_iff.mp hshown
  exact ⟨view, hrun, hfooter, settings_honest halone hrun⟩

/-! ## Where the running config comes from -/

/-- A press of the save button after these events found this config on screen, with
something to save. -/
structure Pressed (setup : Setup) (start : World) (past : List SettingsEvent)
    (edit : Config) : Prop where
  found : ∃ before after view, past = before ++ .save :: after ∧
    run (step setup) (new start) before = some view ∧ view.saving = false ∧
    view.form ≠ view.saved ∧ view.form.toConfig = .ok edit

theorem Pressed.concat {setup : Setup} {start : World} {past : List SettingsEvent}
    {edit : Config} (hpressed : Pressed setup start past edit) (event : SettingsEvent) :
    Pressed setup start (past ++ [event]) edit := by
  obtain ⟨before, after, view, rfl, hfound⟩ := hpressed.found
  exact ⟨before, after ++ [event], view, by rw [List.append_assoc, List.cons_append], hfound⟩

/-- What an event applies after these: the config of a press, or another page's. -/
inductive Applies (setup : Setup) (start : World) (past : List SettingsEvent) :
    SettingsEvent → Config → Control.WriteOutcome → Prop
  | pressed (edit : Config) (outcome : Control.WriteOutcome)
      (hpressed : Pressed setup start past edit) :
      Applies setup start past (.applies outcome) edit outcome
  | elsewhere (edit : Config) (outcome : Control.WriteOutcome) :
      Applies setup start past (.elsewhere edit outcome) edit outcome

/-- The config in memory is the one the page was opened on, or one of these events applied it
with success: valid, and with the passwords it left blank taken from the config that ran then. -/
structure Origin (setup : Setup) (start : World) (past : List SettingsEvent)
    (running : Config) : Prop where
  origin : running = start.config ∨ ∃ before event after view edit outcome,
    past = before ++ event :: after ∧ run (step setup) (new start) before = some view ∧
    Applies setup start before event edit outcome ∧
    (apply setup view.world edit outcome).1 = .ok () ∧
    (edit.keepSecretsFrom view.world.config).validate setup.ctx = .ok () ∧
    running = edit.keepSecretsFrom view.world.config

/-- The running config has an origin, and so has the edit of a save that is under way. -/
structure Traced (setup : Setup) (start : World) (past : List SettingsEvent)
    (view : SettingsView) : Prop where
  reached : run (step setup) (new start) past = some view
  running : Origin setup start past view.world.config
  queued : ∀ config, view.task = some (.queued config) → Pressed setup start past config

theorem valid_of_apply {setup : Setup} {world : World} {edit : Config}
    {outcome : Control.WriteOutcome} (hok : (apply setup world edit outcome).1 = .ok ()) :
    (edit.keepSecretsFrom world.config).validate setup.ctx = .ok () := by
  unfold apply at hok
  dsimp only at hok
  split at hok
  next => cases hok
  next hvalid => exact hvalid

section

variable {setup : Setup} {start : World} {past : List SettingsEvent} {view next : SettingsView}
  {event : SettingsEvent}

theorem Origin.concat {running : Config} (horigin : Origin setup start past running)
    (event : SettingsEvent) : Origin setup start (past ++ [event]) running := by
  refine ⟨horigin.origin.imp id ?_⟩
  rintro ⟨before, applied, after, view, edit, outcome, rfl, hfound⟩
  exact ⟨before, applied, after ++ [event], view, edit, outcome,
    by rw [List.append_assoc, List.cons_append], hfound⟩

/-- An apply leaves a config with an origin, its own if it goes well. -/
theorem Origin.applies (hreached : run (step setup) (new start) past = some view)
    (horigin : Origin setup start past view.world.config) {edit : Config}
    {outcome : Control.WriteOutcome} (happlies : Applies setup start past event edit outcome) :
    Origin setup start (past ++ [event]) (apply setup view.world edit outcome).2.config := by
  cases hanswer : (apply setup view.world edit outcome).1 with
  | error err =>
      rw [apply_error hanswer]
      exact horigin.concat event
  | ok =>
      obtain ⟨disk, hworld⟩ := apply_ok hanswer
      rw [hworld]
      exact ⟨.inr ⟨past, event, [], view, edit, outcome, rfl, hreached, happlies, hanswer,
        valid_of_apply hanswer, rfl⟩⟩

theorem traced_step (htraced : Traced setup start past view)
    (hstep : view.step setup event = some next) :
    Traced setup start (past ++ [event]) next := by
  obtain ⟨hreached, hrunning, hqueued⟩ := htraced
  have hnext : run (step setup) (new start) (past ++ [event]) = some next := by
    rw [run_append, hreached, Option.bind_some, run_cons, hstep]
    rfl
  have hsame := hrunning.concat event
  refine ⟨hnext, ?_, ?_⟩
  · -- only an apply changes the running config
    cases step_effect hstep with
    | edited _ fields corpEnabled hpool => exact hsame
    | ignored => exact hsame
    | refused err hidle hread => exact hsame
    | begins config hidle hchanged hread => exact hsame
    | discards hidle => exact hsame
    | applies outcome config hconfig =>
        exact hrunning.applies hreached (.pressed config outcome (hqueued config hconfig))
    | ends result hreturned =>
        cases result with
        | ok => exact hsame
        | error err => exact hsame
    | elsewhere edit outcome =>
        exact hrunning.applies hreached (.elsewhere edit outcome)
  · -- only a press of the button queues a save
    intro queued htask
    cases step_effect hstep with
    | edited _ fields corpEnabled hpool => exact (hqueued queued htask).concat event
    | ignored => exact (hqueued queued htask).concat _
    | refused err hidle hread => exact (hqueued queued htask).concat _
    | begins config hidle hchanged hread =>
        obtain rfl : config = queued := by simpa using htask
        exact ⟨past, [], view, rfl, hreached, hidle, hchanged, hread⟩
    | discards hidle => exact (hqueued queued htask).concat _
    | applies outcome config hconfig => cases htask
    | ends result hreturned =>
        cases result with
        | ok => cases htask
        | error err => cases htask
    | elsewhere edit outcome => exact (hqueued queued htask).concat _

/-- Whatever was typed since, the proxy runs with what it started with, with what stood on
screen, with something to save, when the save button was pressed, or with what another page
applied. -/
theorem running_was_on_screen {events : List SettingsEvent}
    (hrun : run (step setup) (new start) events = some view) :
    Origin setup start events view.world.config := by
  have htraced : Traced setup start events view := by
    refine run_history_invariant (Traced setup start) ⟨rfl, ⟨.inl rfl⟩, fun config hqueued => ?_⟩
      (fun _ _ _ _ htraced hstep => traced_step htraced hstep) hrun
    cases hqueued
  exact htraced.running

end

/-- What was typed during the save did not reach the running config. -/
theorem running_was_on_screen_sampleSave :
    ∃ view, run (step appSetup) (new (worldOf {})) (sampleSave portless) = some view ∧
      view.world.config.listen = {} ∧ view.world.config.routing.mode = .upstream ∧
      Origin appSetup (worldOf {}) (sampleSave portless) view.world.config := by
  have hrunning : (run (step appSetup) (new (worldOf {})) (sampleSave portless)).map
      (fun view => (view.world.config.listen, view.world.config.routing.mode)) =
        some ({}, .upstream) := by decide +kernel
  obtain ⟨view, hrun, hconfig⟩ := Option.map_eq_some_iff.mp hrunning
  exact ⟨view, hrun, congrArg Prod.fst hconfig, congrArg Prod.snd hconfig,
    running_was_on_screen hrun⟩

end SettingsView

end Zicade.Ui
