import Mathlib.Algebra.Order.Floor.Semiring
import Mathlib.Data.List.Chain
import Mathlib.Data.Rat.Floor
import Mathlib.Tactic.Linarith
import Mathlib.Tactic.NormNum
import Zicade.Ui.Rates

/-! # The throughput chart

Once a second the overview samples the proxy's counters, fits the chart's scale to what is
drawn, and lets the drawing slide left by one slot until the next sample. Rates are exact
rationals, as are the scale and the positions, and clock readings are nanoseconds since the view
was made.
-/

namespace Zicade.Ui

/-- Points the visible window spans. -/
def WINDOW : Nat := 61

/-! ## The scale -/

/-- `steps` equal intervals of `step` bytes/s from zero. -/
structure Scale where
  step : ℚ
  steps : Nat
  deriving DecidableEq, Repr

/-- The value at the top grid line. -/
def Scale.top (scale : Scale) : ℚ := scale.step * scale.steps

/-- The most steps a fitted scale has. -/
def mostSteps : Nat := 4

/-- The steps of the 1-2-5 sequence, unit by unit. -/
def roundSteps : List Nat :=
  [1, 2, 3, 4, 5].flatMap fun power =>
    [1, 2, 5, 10, 20, 50, 100, 200, 500].map fun size => size * 1024 ^ power

/-- How many such steps a peak takes: two at least. -/
def stepsFor (peak : ℚ) (step : Nat) : Nat := max ⌈peak / step⌉₊ 2

/-- The smallest step that covers the peak. -/
def scale (peak : ℚ) : Scale :=
  match roundSteps.find? fun step => stepsFor peak step ≤ mostSteps with
  | some step => ⟨step, stepsFor peak step⟩
  | none => ⟨peak / mostSteps, mostSteps⟩

/-- Kept while the peak fits under its top and is at least 40% of it. -/
def rescale (current : Option Scale) (peak : ℚ) : Scale :=
  match current with
  | some held => if peak ≤ held.top ∧ held.top * (2 / 5) ≤ peak then held else scale peak
  | none => scale peak

/-! ## The drawing -/

/-- The samples to draw, oldest first: one more than the window, empty where nothing was
measured. -/
def series (history : List (ℚ × ℚ)) : List (ℚ × ℚ) :=
  let wanted := WINDOW + 1
  let start := history.length - wanted
  List.replicate (wanted - (history.length - start)) (0, 0) ++ history.drop start

def clamp (progress : ℚ) : ℚ := max 0 (min progress 1)

/-- How far left the drawing is shifted, as a fraction of the visible width. -/
def slide (progress : ℚ) : ℚ := clamp progress / (WINDOW - 1)

/-- The rate in the legend, counting from the previous sample to the newest. -/
def rateAt (history : List (ℚ × ℚ)) (progress : ℚ) : ℚ × ℚ :=
  match history.reverse with
  | [] => (0, 0)
  | [only] => only
  | b :: a :: _ =>
      (a.1 + (b.1 - a.1) * clamp progress, a.2 + (b.2 - a.2) * clamp progress)

/-- A sample at its place: the slots are evenly spread and shifted, and the visible width is
from 0 to 1. -/
def place (progress : ℚ) (i : Nat) (sample : ℚ × ℚ) : ℚ × ℚ × ℚ :=
  ((i : ℚ) / (WINDOW - 1) - slide progress, sample)

/-- The points of the chart. -/
def points (history : List (ℚ × ℚ)) (progress : ℚ) : List (ℚ × ℚ × ℚ) :=
  (series history).mapIdx (place progress)

/-- What the chart shows at one moment: its line, and the rates beside it. -/
structure Frame where
  points : List (ℚ × ℚ × ℚ)
  legend : ℚ × ℚ
  deriving DecidableEq, Repr

def frame (history : List (ℚ × ℚ)) (progress : ℚ) : Frame :=
  ⟨points history progress, rateAt history progress⟩

/-! ## The view -/

/-- The time from one refresh to the next. -/
def REFRESH : Nat := 1000000000

/-- What a refresh reads: the counters and the clock, and right after it the clock again. -/
structure Refresh extends Reading where
  sampled : Nat
  deriving DecidableEq, Repr

/-- The throughput of the overview, the clock at its last refresh, and the scale it holds. -/
structure Overview where
  throughput : Throughput := { capacity := WINDOW + 1 }
  sampled : Nat := 0
  scale : Option Scale := none

namespace Overview

/-- The highest value that is drawn. -/
def peak (history : List (ℚ × ℚ)) : ℚ :=
  ((series history).map fun sample => max sample.1 sample.2).foldl max 0

/-- The slide starts anew with every reading, also with one that the throughput ignores. -/
def refresh (view : Overview) (reading : Refresh) : Overview :=
  let throughput := view.throughput.sample reading.down reading.up reading.readAt
  { throughput
    sampled := reading.sampled
    scale := some (rescale view.scale (peak throughput.history)) }

/-- The view refreshes once when it is made, and then once a second. -/
def watch (first : Refresh) (rest : List Refresh) : Overview :=
  rest.foldl refresh (refresh {} first)

/-- How far the slide has come; with reduced motion each sample is shown as it lands. -/
def progress (view : Overview) (reduceMotion : Bool) (now : Nat) : ℚ :=
  if reduceMotion then 1 else seconds (now - view.sampled) / seconds REFRESH

/-- The chart as it is rendered at `now`. -/
def render (view : Overview) (reduceMotion : Bool) (now : Nat) : Frame :=
  frame view.throughput.history (view.progress reduceMotion now)

end Overview

/-! ## The scale fits -/

/-- The first match of a list is its first entry, or comes right after one that did not match. -/
theorem find?_of_isChain {α : Type*} {R : α → α → Prop} {p : α → Bool} {l : List α} {b : α}
    (hchain : l.IsChain R) (hfind : l.find? p = some b) :
    l.head? = some b ∨ ∃ a ∈ l, p a = false ∧ R a b := by
  induction l with
  | nil => cases hfind
  | cons first rest ih =>
      by_cases hfirst : p first = true
      · rw [List.find?_cons_of_pos hfirst] at hfind
        exact .inl (by rw [List.head?_cons, hfind])
      · rw [List.find?_cons_of_neg hfirst] at hfind
        right
        rcases ih hchain.tail hfind with hhead | ⟨before, hmem, hbefore⟩
        · refine ⟨first, List.mem_cons_self, by simpa using hfirst, ?_⟩
          cases rest with
          | nil => cases hhead
          | cons next rest =>
              obtain rfl := Option.some.inj hhead
              exact (List.isChain_cons_cons.mp hchain).1
        · exact ⟨before, List.mem_cons_of_mem _ hmem, hbefore⟩

theorem roundSteps_pos {step : Nat} (hmem : step ∈ roundSteps) : 0 < step := by
  have hall : ∀ step ∈ roundSteps, 0 < step := by decide +kernel
  exact hall step hmem

/-- No step is more than two and a half times the one before. -/
theorem roundSteps_chain : roundSteps.IsChain fun a b => 2 * b ≤ 5 * a := by decide +kernel

theorem peak_le_stepsFor (peak : ℚ) {step : Nat} (hstep : 0 < step) :
    peak ≤ step * stepsFor peak step := by
  have hpos : (0 : ℚ) < step := by exact_mod_cast hstep
  have hceil : peak / step ≤ stepsFor peak step :=
    (Nat.le_ceil _).trans (by exact_mod_cast le_max_left _ 2)
  rw [div_le_iff₀ hpos] at hceil
  rwa [mul_comm]

/-- A step that takes too many intervals is much smaller than the peak. -/
theorem lt_of_mostSteps_lt {peak : ℚ} {step : Nat} (hstep : 0 < step)
    (hmany : mostSteps < stepsFor peak step) : (4 : ℚ) * step < peak := by
  have hpos : (0 : ℚ) < step := by exact_mod_cast hstep
  have hceil : mostSteps < ⌈peak / step⌉₊ := by
    unfold stepsFor mostSteps at *
    omega
  have hdiv : ((4 : Nat) : ℚ) < peak / step := Nat.lt_ceil.mp hceil
  rwa [lt_div_iff₀ hpos] at hdiv

/-- What the grid of a scale is like: two to four round steps, or a quarter of a peak beyond
all of them. -/
inductive Scale.Round : Scale → Prop
  | sequence (step steps : Nat) (hstep : step ∈ roundSteps) (htwo : 2 ≤ steps)
      (hmost : steps ≤ mostSteps) : Round ⟨step, steps⟩
  | beyond (peak : ℚ) (hbeyond : ∀ step ∈ roundSteps, (4 : ℚ) * step < peak) :
      Round ⟨peak / mostSteps, mostSteps⟩

/-- The finest scale, which an idle chart has. -/
def Scale.finest : Scale := ⟨1024, 2⟩

/-- The scale covers the peak, and is not much larger than it. -/
structure Scale.Fits (scale : Scale) (peak : ℚ) : Prop where
  covers : peak ≤ scale.top
  fills : scale = .finest ∨ scale.top * (2 / 5) ≤ peak

theorem scale_round (peak : ℚ) : (scale peak).Round := by
  unfold scale
  split
  next step hfind =>
    have hmost := List.find?_some hfind
    rw [decide_eq_true_eq] at hmost
    exact .sequence step _ (List.mem_of_find?_eq_some hfind) (le_max_right _ 2) hmost
  next hnone =>
    refine .beyond peak fun step hmem => lt_of_mostSteps_lt (roundSteps_pos hmem) ?_
    have hnot := List.find?_eq_none.mp hnone step hmem
    simpa using hnot

theorem scale_fits {peak : ℚ} (hpeak : 0 ≤ peak) : (scale peak).Fits peak := by
  unfold scale
  split
  next step hfind =>
    have hmem := List.mem_of_find?_eq_some hfind
    have hmost := List.find?_some hfind
    rw [decide_eq_true_eq] at hmost
    have hpos : (0 : ℚ) < step := by exact_mod_cast roundSteps_pos hmem
    refine ⟨peak_le_stepsFor peak (roundSteps_pos hmem), ?_⟩
    have hsteps : (stepsFor peak step : ℚ) ≤ 4 := by exact_mod_cast hmost
    rcases find?_of_isChain roundSteps_chain hfind with hhead | ⟨before, hbefore, hmany, hnext⟩
    · -- the smallest step of all: it takes two, or the peak is past two of them
      obtain rfl : 1024 = step := by simpa [roundSteps] using hhead
      by_cases htwo : stepsFor peak 1024 = 2
      · exact .inl (by rw [htwo]; norm_num [Scale.finest])
      · right
        have hceil : 2 < ⌈peak / (1024 : Nat)⌉₊ := by
          unfold stepsFor at htwo
          omega
        have hdiv := Nat.lt_ceil.mp hceil
        rw [lt_div_iff₀ hpos] at hdiv
        simp only [Scale.top]
        push_cast at hdiv ⊢
        linarith
    · -- the step before was too small, and this one is not much larger
      right
      have hlarge : (4 : ℚ) * before < peak := by
        apply lt_of_mostSteps_lt (roundSteps_pos hbefore)
        simpa using hmany
      have hratio : (2 : ℚ) * step ≤ 5 * before := by exact_mod_cast hnext
      have htop : (step : ℚ) * stepsFor peak step ≤ step * 4 :=
        mul_le_mul_of_nonneg_left hsteps hpos.le
      simp only [Scale.top]
      linarith
  next hnone =>
    have htop : (⟨peak / mostSteps, mostSteps⟩ : Scale).top = peak := by
      simp [Scale.top, mostSteps]
    exact ⟨htop.ge, .inr (by rw [htop]; linarith)⟩

theorem rescale_fits (current : Option Scale) {peak : ℚ} (hpeak : 0 ≤ peak) :
    (rescale current peak).Fits peak := by
  cases current with
  | none => exact scale_fits hpeak
  | some held =>
      rw [rescale]
      split
      next hheld => exact ⟨hheld.1, .inr hheld.2⟩
      next => exact scale_fits hpeak

theorem rescale_round {current : Option Scale} (hcurrent : ∀ held ∈ current, held.Round)
    (peak : ℚ) : (rescale current peak).Round := by
  cases current with
  | none => exact scale_round peak
  | some held =>
      rw [rescale]
      split
      next => exact hcurrent held rfl
      next => exact scale_round peak

theorem Scale.Round.top_pos {scale : Scale} (hround : scale.Round) : 0 < scale.top := by
  cases hround with
  | sequence step steps hstep htwo hmost =>
      have hsteps : (0 : ℚ) < steps := by exact_mod_cast Nat.lt_of_lt_of_le Nat.zero_lt_two htwo
      have hpos : (0 : ℚ) < step := by exact_mod_cast roundSteps_pos hstep
      exact mul_pos hpos hsteps
  | beyond peak hbeyond =>
      have hpeak := hbeyond 1024 (by decide +kernel)
      simp only [Scale.top, mostSteps]
      push_cast at hpeak ⊢
      linarith

/-! ## The highest value -/

theorem foldl_max_cases (values : List ℚ) (start : ℚ) :
    (∀ value ∈ values, value ≤ values.foldl max start) ∧ start ≤ values.foldl max start ∧
      (values.foldl max start = start ∨ values.foldl max start ∈ values) := by
  induction values generalizing start with
  | nil => exact ⟨by simp, le_rfl, .inl rfl⟩
  | cons value rest ih =>
      obtain ⟨hrest, hstart, hmem⟩ := ih (max start value)
      rw [List.foldl_cons]
      refine ⟨?_, (le_max_left _ _).trans hstart, ?_⟩
      · intro other hother
        rcases List.mem_cons.mp hother with rfl | hother
        · exact (le_max_right _ _).trans hstart
        · exact hrest other hother
      · rcases hmem with hsame | hmem
        · rw [hsame]
          rcases max_choice start value with hleft | hright
          · exact .inl hleft
          · exact .inr (by rw [hright]; exact List.mem_cons_self)
        · exact .inr (List.mem_cons_of_mem _ hmem)

namespace Overview

theorem peak_nonneg (history : List (ℚ × ℚ)) : 0 ≤ peak history :=
  (foldl_max_cases _ 0).2.1

theorem le_peak {history : List (ℚ × ℚ)} {sample : ℚ × ℚ} (hmem : sample ∈ series history) :
    sample.1 ≤ peak history ∧ sample.2 ≤ peak history :=
  max_le_iff.mp ((foldl_max_cases _ 0).1 _ (List.mem_map_of_mem hmem))

/-- A peak above zero is a value that is drawn. -/
theorem peak_mem {history : List (ℚ × ℚ)} (hpos : 0 < peak history) :
    ∃ sample ∈ series history, max sample.1 sample.2 = peak history := by
  rcases (foldl_max_cases ((series history).map fun sample => max sample.1 sample.2) 0).2.2
    with hzero | hmem
  · exact absurd hzero hpos.ne'
  · exact List.mem_map.mp hmem

end Overview

/-! ## The history of rates -/

/-- The rates are at least zero, and never more than the chart draws. -/
structure Throughput.Charted (throughput : Throughput) : Prop where
  capacity : throughput.capacity = WINDOW + 1
  length : throughput.history.length ≤ WINDOW + 1
  nonneg : ∀ sample ∈ throughput.history, 0 ≤ sample.1 ∧ 0 ≤ sample.2

/-- Whether a reading is later than the one before it. -/
def Throughput.measures (throughput : Throughput) (reading : Reading) : Bool :=
  match throughput.previous with
  | some (_, _, before) => before < reading.readAt
  | none => false

/-- What a sample does: nothing without elapsed time, else a new newest rate, and the oldest of
a full history goes. -/
theorem Throughput.sample_cases {throughput : Throughput} (hcharted : throughput.Charted)
    (reading : Reading) :
    (throughput.sample reading.down reading.up reading.readAt).Charted ∧
      if throughput.measures reading then
        ∃ newest, (throughput.sample reading.down reading.up reading.readAt).history =
          (if throughput.history.length = WINDOW + 1 then throughput.history.tail
            else throughput.history) ++ [newest]
      else (throughput.sample reading.down reading.up reading.readAt).history =
        throughput.history := by
  obtain ⟨hcapacity, hlength, hnonneg⟩ := hcharted
  cases hprevious : throughput.previous with
  | none =>
    simp only [sample, measures, hprevious]
    exact ⟨⟨hcapacity, hlength, hnonneg⟩, by simp⟩
  | some previous =>
    obtain ⟨prevIn, prevOut, prevAt⟩ := previous
    simp only [sample, measures, hprevious]
    have hmeasures : 0 < seconds (reading.readAt - prevAt) ↔ prevAt < reading.readAt := by
      rw [seconds_pos_iff, Nat.sub_pos_iff_lt]
    split
    next hstill =>
      -- without elapsed time the sample only replaces the counters
      have hnot : ¬ prevAt < reading.readAt := fun hlt => hstill.not_gt (hmeasures.mpr hlt)
      rw [decide_eq_false hnot]
      exact ⟨⟨hcapacity, hlength, hnonneg⟩, by simp⟩
    next helapsed =>
      have hpos : 0 < seconds (reading.readAt - prevAt) := not_le.mp helapsed
      have hrate : ∀ now before, 0 ≤ rate now before (seconds (reading.readAt - prevAt)) :=
        fun now before => div_nonneg (Nat.cast_nonneg _) hpos.le
      rw [hcapacity, decide_eq_true (hmeasures.mp hpos)]
      refine ⟨⟨rfl, ?_, ?_⟩, _, rfl⟩
      · dsimp only
        split
        next hfull =>
          rw [List.length_append, List.length_tail, List.length_singleton]
          omega
        next hroom =>
          rw [List.length_append, List.length_singleton]
          omega
      · intro sample hmem
        rcases List.mem_append.mp hmem with hold | hnew
        · split at hold
          next => exact hnonneg sample (List.mem_of_mem_tail hold)
          next => exact hnonneg sample hold
        · rw [List.mem_singleton.mp hnew]
          exact ⟨hrate _ _, hrate _ _⟩

theorem series_of_length_le {history : List (ℚ × ℚ)} (hlength : history.length ≤ WINDOW + 1) :
    series history = List.replicate (WINDOW + 1 - history.length) (0, 0) ++ history := by
  rw [series, Nat.sub_eq_zero_of_le hlength, Nat.sub_zero, List.drop_zero]

/-! ## The scale over a run -/

/-- What holds after every refresh. -/
structure Overview.Charted (view : Overview) : Prop where
  throughput : view.throughput.Charted
  scale : ∃ scale ∈ view.scale, scale.Round ∧ scale.Fits (peak view.throughput.history)

namespace Overview

theorem charted_refresh {view : Overview} (hthroughput : view.throughput.Charted)
    (hround : ∀ held ∈ view.scale, held.Round) (reading : Refresh) :
    (view.refresh reading).Charted where
  throughput := (Throughput.sample_cases hthroughput reading.toReading).1
  scale := ⟨_, rfl, rescale_round hround _, rescale_fits _ (peak_nonneg _)⟩

theorem charted_watch (first : Refresh) (rest : List Refresh) : (watch first rest).Charted := by
  have hfirst : (refresh {} first).Charted :=
    charted_refresh ⟨rfl, Nat.zero_le _, by simp⟩ (by simp) first
  refine Foundation.foldl_history_invariant (fun _ (view : Overview) => view.Charted) hfirst ?_ rest
  rintro past view reading ⟨hthroughput, scale, hscale, hround, -⟩
  refine charted_refresh hthroughput ?_ reading
  intro held hheld
  rw [Option.mem_def.mp hscale] at hheld
  rwa [← Option.some.inj hheld]

/-- After any readings of the counters, with restarts and with a clock that stands still, the
chart has a scale of a few round steps that covers everything it draws, and unless it is the
finest one the line reaches two fifths of its height. -/
theorem chart_covers (first : Refresh) (rest : List Refresh) :
    ∃ scale ∈ (watch first rest).scale, scale.Round ∧
      (∀ sample ∈ series (watch first rest).throughput.history,
        (0 ≤ sample.1 ∧ sample.1 ≤ scale.top) ∧ 0 ≤ sample.2 ∧ sample.2 ≤ scale.top) ∧
      (scale = .finest ∨ ∃ sample ∈ series (watch first rest).throughput.history,
        scale.top * (2 / 5) ≤ max sample.1 sample.2) := by
  obtain ⟨hthroughput, scale, hscale, hround, hcovers, hfills⟩ := charted_watch first rest
  refine ⟨scale, hscale, hround, ?_, ?_⟩
  · intro sample hmem
    obtain ⟨hleft, hright⟩ := le_peak hmem
    have hnonneg : 0 ≤ sample.1 ∧ 0 ≤ sample.2 := by
      rw [series_of_length_le hthroughput.length] at hmem
      rcases List.mem_append.mp hmem with hempty | hmeasured
      · rw [List.eq_of_mem_replicate hempty]
        exact ⟨le_rfl, le_rfl⟩
      · exact hthroughput.nonneg sample hmeasured
    exact ⟨⟨hnonneg.1, hleft.trans hcovers⟩, hnonneg.2, hright.trans hcovers⟩
  · rcases hfills with hfinest | hfills
    · exact .inl hfinest
    · right
      have hpos := hround.top_pos
      obtain ⟨sample, hmem, hpeak⟩ :=
        peak_mem (lt_of_lt_of_le (by linarith : 0 < scale.top * (2 / 5)) hfills)
      exact ⟨sample, hmem, hpeak ▸ hfills⟩

end Overview

/-! ## The drawing slides -/

theorem slide_zero : slide 0 = 0 := by norm_num [slide, clamp]

theorem slide_one : slide 1 = 1 / (WINDOW - 1) := by norm_num [slide, clamp]

theorem clamp_mem (progress : ℚ) : 0 ≤ clamp progress ∧ clamp progress ≤ 1 :=
  ⟨le_max_left _ _, max_le zero_le_one (min_le_right _ _)⟩

/-- A new sample takes the place of the oldest one, at the other end. -/
theorem series_concat {history : List (ℚ × ℚ)} (hlength : history.length ≤ WINDOW + 1)
    (newest : ℚ × ℚ) :
    series ((if history.length = WINDOW + 1 then history.tail else history) ++ [newest]) =
      (series history).tail ++ [newest] := by
  split
  next hfull =>
    have htail : (history.tail ++ [newest]).length = WINDOW + 1 := by
      rw [List.length_append, List.length_tail, hfull]
      rfl
    rw [series_of_length_le htail.le, series_of_length_le hlength, htail, hfull]
    simp
  next hroom =>
    have hlt : history.length < WINDOW + 1 := Nat.lt_of_le_of_ne hlength hroom
    have hnext : (history ++ [newest]).length ≤ WINDOW + 1 := by
      rw [List.length_append]
      exact hlt
    obtain ⟨empty, hempty⟩ := Nat.exists_eq_add_of_lt hlt
    have hbefore : WINDOW + 1 - history.length = empty + 1 := by omega
    have hafter : WINDOW + 1 - (history ++ [newest]).length = empty := by
      rw [List.length_append, List.length_singleton]
      omega
    rw [series_of_length_le hnext, series_of_length_le hlength, hbefore, hafter,
      List.replicate_succ, List.cons_append, List.tail_cons, List.append_assoc]

theorem length_series {history : List (ℚ × ℚ)} (hlength : history.length ≤ WINDOW + 1) :
    (series history).length = WINDOW + 1 := by
  rw [series_of_length_le hlength, List.length_append, List.length_replicate]
  omega

/-- One slot further right, at the end of its slide, is where the next slide starts. -/
theorem place_succ (i : Nat) (sample : ℚ × ℚ) : place 1 (i + 1) sample = place 0 i sample := by
  simp only [place, slide_one, slide_zero]
  push_cast
  rw [add_div, add_sub_cancel_right, sub_zero]

theorem rateAt_concat (front : List (ℚ × ℚ)) (held newest : ℚ × ℚ) :
    rateAt (front ++ [held] ++ [newest]) 0 = held := by
  simp [rateAt, clamp]

theorem rateAt_one (front : List (ℚ × ℚ)) (held : ℚ × ℚ) : rateAt (front ++ [held]) 1 = held := by
  rcases front.eq_nil_or_concat with rfl | ⟨older, before, rfl⟩
  · rfl
  · simp [rateAt, clamp]

/-- A new sample changes nothing on screen at the end of a slide but for a point that waits at
the right edge. -/
theorem points_concat {history : List (ℚ × ℚ)} (hlength : history.length ≤ WINDOW + 1)
    (newest : ℚ × ℚ) :
    points ((if history.length = WINDOW + 1 then history.tail else history) ++ [newest]) 0 =
      (points history 1).tail ++ [((WINDOW : ℚ) / (WINDOW - 1), newest)] := by
  have hseries := length_series hlength
  cases hdrawn : series history with
  | nil => simp [hdrawn] at hseries
  | cons oldest rest =>
      rw [hdrawn, List.length_cons] at hseries
      have hrest : rest.length = WINDOW := by omega
      rw [points, points, series_concat hlength, hdrawn, List.tail_cons, List.mapIdx_cons,
        List.tail_cons, List.mapIdx_append]
      -- each sample that stays is one slot further left, and the newest has the last slot
      congr 1
      · congr 1
        funext i sample
        exact (place_succ i sample).symm
      · simp [place, slide_zero, hrest]

/-- The legend goes on from the rate it had reached. -/
theorem rateAt_scrolled {history : List (ℚ × ℚ)} (hne : history ≠ []) (newest : ℚ × ℚ) :
    rateAt ((if history.length = WINDOW + 1 then history.tail else history) ++ [newest]) 0 =
      rateAt history 1 := by
  obtain ⟨front, held, rfl⟩ := (List.eq_nil_or_concat history).resolve_left hne
  rw [List.concat_eq_append, rateAt_one]
  split
  next hfull =>
    cases front with
    | nil => simp [WINDOW] at hfull
    | cons oldest front => exact rateAt_concat front held newest
  next => exact rateAt_concat front held newest

/-- A slide that is over shows what it showed at its end. -/
theorem frame_of_one_le (history : List (ℚ × ℚ)) {progress : ℚ} (hover : 1 ≤ progress) :
    frame history progress = frame history 1 := by
  have hclamp : clamp progress = clamp 1 := by
    rw [clamp, clamp, min_eq_right hover, min_self]
  have hplace : place progress = place 1 := by
    funext i sample
    rw [place, place, slide, slide, hclamp]
  simp only [frame, points, rateAt, hplace, hclamp]

/-- At its end a slide has the newest sample at the right edge, and in the legend. -/
theorem frame_one (front : List (ℚ × ℚ)) (newest : ℚ × ℚ)
    (hlength : (front ++ [newest]).length ≤ WINDOW + 1) :
    (frame (front ++ [newest]) 1).points.getLast? = some (1, newest) ∧
      (frame (front ++ [newest]) 1).legend = newest := by
  refine ⟨?_, rateAt_one front newest⟩
  have hseries := length_series hlength
  have hnewest : (series (front ++ [newest]))[WINDOW]? = some newest := by
    have hlast : (series (front ++ [newest])).getLast? = some newest := by
      rw [series_of_length_le hlength, ← List.append_assoc, List.getLast?_concat]
    rwa [List.getLast?_eq_getElem?, hseries, Nat.add_sub_cancel] at hlast
  rw [List.getLast?_eq_getElem?]
  simp only [frame, points, List.length_mapIdx, hseries, Nat.add_sub_cancel,
    List.getElem?_mapIdx, hnewest, Option.map_some]
  norm_num [place, slide_one, WINDOW]

/-- However far a slide has come, the points reach from one edge to the other. -/
theorem points_span {history : List (ℚ × ℚ)} (hlength : history.length ≤ WINDOW + 1)
    (progress : ℚ) :
    ∃ left right, (points history progress).head? = some left ∧
      (points history progress).getLast? = some right ∧ left.1 ≤ 0 ∧ 1 ≤ right.1 := by
  have hseries := length_series hlength
  obtain ⟨hzero, hone⟩ := clamp_mem progress
  have hpoints : (points history progress).length = WINDOW + 1 := by
    rw [points, List.length_mapIdx, hseries]
  have hget (i : Nat) (hi : i < WINDOW + 1) :
      ∃ sample, (points history progress)[i]? = some (place progress i sample) := by
    obtain ⟨sample, hsample⟩ : ∃ sample, (series history)[i]? = some sample :=
      Option.isSome_iff_exists.mp (by simpa [hseries] using hi)
    exact ⟨sample, by rw [points, List.getElem?_mapIdx, hsample, Option.map_some]⟩
  obtain ⟨oldest, holdest⟩ := hget 0 (by decide)
  obtain ⟨newest, hnewest⟩ := hget WINDOW (by decide)
  refine ⟨place progress 0 oldest, place progress WINDOW newest, ?_, ?_, ?_, ?_⟩
  · rw [List.head?_eq_getElem?, holdest]
  · rw [List.getLast?_eq_getElem?, hpoints, Nat.add_sub_cancel, hnewest]
  · simp only [place, slide, WINDOW]
    norm_num
    linarith
  · simp only [place, slide, WINDOW]
    norm_num
    linarith

namespace Overview

/-- What a new sample changes on screen at the moment it lands: nothing but a point that waits
at the right edge; and once a rate was measured, the legend goes on from the one it had
reached. -/
structure Scrolls (view after : Overview) (now : Nat) : Prop where
  points : ∃ newest, after.throughput.history.getLast? = some newest ∧
    (after.render false now).points =
      (view.render false now).points.tail ++ [((WINDOW : ℚ) / (WINDOW - 1), newest)]
  legend : view.throughput.history ≠ [] →
    (after.render false now).legend = (view.render false now).legend

/-- A slide starts with its sample. -/
theorem render_sampled (view : Overview) :
    view.render false view.sampled = frame view.throughput.history 0 := by
  simp [render, progress, seconds]

/-- A second later it is over. -/
theorem render_of_slid {view : Overview} {now : Nat} (hslid : view.sampled + REFRESH ≤ now) :
    view.render false now = frame view.throughput.history 1 := by
  apply frame_of_one_le
  have hrefresh : (0 : ℚ) < seconds REFRESH := (seconds_pos_iff REFRESH).mpr (by decide)
  have hlater : (REFRESH : ℚ) ≤ (now - view.sampled : Nat) :=
    Nat.cast_le.mpr (Nat.le_sub_of_add_le' hslid)
  rw [progress, if_neg Bool.false_ne_true, le_div_iff₀ hrefresh, one_mul]
  exact div_le_div_of_nonneg_right hlater (by norm_num)

theorem scrolls_refresh {view : Overview} (hcharted : view.throughput.Charted) {next : Refresh}
    (hmeasures : view.throughput.measures next.toReading = true)
    (hslid : view.sampled + REFRESH ≤ next.sampled) :
    view.Scrolls (view.refresh next) next.sampled := by
  have hcases := (Throughput.sample_cases hcharted next.toReading).2
  rw [if_pos hmeasures] at hcases
  obtain ⟨newest, hhistory⟩ := hcases
  have hafter : (view.refresh next).render false next.sampled =
      frame ((if view.throughput.history.length = WINDOW + 1 then view.throughput.history.tail
        else view.throughput.history) ++ [newest]) 0 := by
    rw [← hhistory]
    exact render_sampled (view.refresh next)
  refine ⟨⟨newest, ?_, ?_⟩, fun hne => ?_⟩
  · exact (congrArg List.getLast? hhistory).trans List.getLast?_concat
  · rw [hafter, render_of_slid hslid]
    exact points_concat hcharted.length newest
  · rw [hafter, render_of_slid hslid]
    exact rateAt_scrolled hne newest

end Overview

end Zicade.Ui
