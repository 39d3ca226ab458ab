import Mathlib.Algebra.Order.Field.Basic
import Mathlib.Algebra.Order.Field.Rat
import Mathlib.Tactic.Linarith
import Mathlib.Tactic.NormNum
import Mathlib.Tactic.Ring
import Zicade.Proxy.Book

/-! # Displayed rates

Two displays turn cumulative byte counters into rates: one follows the connections of each
snapshot, one the counters of the whole proxy. Clock readings are in nanoseconds, and rates are
exact rationals where the source has floats.
-/

namespace Zicade.Ui

open Zicade.Proxy.Book

/-- `as_secs_f64` of a duration. -/
def seconds (nanos : Nat) : ℚ := nanos / 1000000000

/-- Bytes per second. -/
def rate (now before : Nat) (elapsed : ℚ) : ℚ := ((now - before : Nat) : ℚ) / elapsed

/-! ## Per connection -/

/-- The last-seen counters with their clock reading, and the current (up, down) rate, of each
connection id. -/
structure ConnectionRates where
  last : Std.TreeMap Nat (Nat × Nat × Nat) := ∅
  rates : Std.TreeMap Nat (ℚ × ℚ) := ∅

namespace ConnectionRates

/-- The rate of a connection in a new snapshot: over the time since its last counters if there
is any, and otherwise the one it had. -/
def rateNow (self : ConnectionRates) (c : ConnectionSnapshot) (readAt : Nat) : Option (ℚ × ℚ) :=
  match self.last[c.id]? with
  | some (up, down, before) =>
      let elapsed := seconds (readAt - before)
      if 0 < elapsed then some (rate c.bytesUp up elapsed, rate c.bytesDown down elapsed)
      else self.rates[c.id]?
  | none => none

/-- One turn of the loop over the connections. -/
def follow (self : ConnectionRates) (readAt : Nat) (next : ConnectionRates)
    (c : ConnectionSnapshot) : ConnectionRates :=
  { last := next.last.insert c.id (c.bytesUp, c.bytesDown, readAt)
    rates :=
      match self.rateNow c readAt with
      | some known => next.rates.insert c.id known
      | none => next.rates }

/-- Take a new snapshot; connections missing from it are forgotten. -/
def update (self : ConnectionRates) (connections : List ConnectionSnapshot) (readAt : Nat) :
    ConnectionRates :=
  connections.foldl (self.follow readAt) {}

end ConnectionRates

/-! ## The whole proxy -/

structure Throughput where
  capacity : Nat
  previous : Option (Nat × Nat × Nat) := none
  history : List (ℚ × ℚ) := []

namespace Throughput

/-- Record the counters; a reading without elapsed time is ignored. -/
def sample (self : Throughput) (bytesIn bytesOut readAt : Nat) : Throughput :=
  match self.previous with
  | some (prevIn, prevOut, prevAt) =>
      let elapsed := seconds (readAt - prevAt)
      if elapsed ≤ 0 then self
      else
        let kept := if self.history.length = self.capacity then self.history.tail else self.history
        { self with
          history := kept ++ [(rate bytesIn prevIn elapsed, rate bytesOut prevOut elapsed)]
          previous := some (bytesIn, bytesOut, readAt) }
  | none => { self with previous := some (bytesIn, bytesOut, readAt) }

def latest (self : Throughput) : Option (ℚ × ℚ) := self.history.getLast?

end Throughput

/-! ## Readings -/

/-- The two counters at a clock reading. -/
structure Reading where
  up : Nat
  down : Nat
  readAt : Nat
  deriving DecidableEq, Repr

inductive Direction
  | up
  | down
  deriving DecidableEq, Repr

namespace Direction

def count : Direction → Reading → Nat
  | up, reading => reading.up
  | down, reading => reading.down

def rateOf {Rate : Type} : Direction → Rate × Rate → Rate
  | up, rates => rates.1
  | down, rates => rates.2

end Direction

/-- Later readings are not earlier and not lower. -/
structure Steady (readings : List Reading) : Prop where
  clock : readings.Pairwise fun earlier later => earlier.readAt ≤ later.readAt
  counts : ∀ d : Direction, readings.Pairwise fun earlier later => d.count earlier ≤ d.count later

namespace Steady

variable {first next : Reading} {rest : List Reading} (hsteady : Steady (first :: next :: rest))
include hsteady

theorem tail : Steady (next :: rest) :=
  ⟨hsteady.clock.tail, fun d => (hsteady.counts d).tail⟩

theorem skip : Steady (first :: rest) :=
  have hsublist : (first :: rest).Sublist (first :: next :: rest) :=
    (List.sublist_cons_self next rest).cons_cons first
  ⟨hsteady.clock.sublist hsublist, fun d => (hsteady.counts d).sublist hsublist⟩

theorem readAt_le : first.readAt ≤ next.readAt :=
  List.rel_of_pairwise_cons hsteady.clock List.mem_cons_self

theorem count_le (d : Direction) : d.count first ≤ d.count next :=
  List.rel_of_pairwise_cons (hsteady.counts d) List.mem_cons_self

end Steady

/-! ## Counting in bytes -/

section

variable (d : Direction)

/-- What counts when the baseline moves with every reading. -/
def credited : Reading → List Reading → Nat
  | _, [] => 0
  | first, next :: rest =>
      (if first.readAt < next.readAt then d.count next - d.count first else 0) + credited next rest

/-- What counts when readings without elapsed time are ignored. -/
def creditedHeld : Reading → List Reading → Nat
  | _, [] => 0
  | base, next :: rest =>
      if base.readAt < next.readAt then d.count next - d.count base + creditedHeld next rest
      else creditedHeld base rest

/-- The counter at the last reading with elapsed time since the one before it; `found` if there
is none. -/
def lastCounter (found : Nat) : Reading → List Reading → Nat
  | _, [] => found
  | first, next :: rest =>
      lastCounter (if first.readAt < next.readAt then d.count next else found) next rest

/-- What moved at repeated clock readings that a later one with elapsed time follows. -/
def lost : Reading → List Reading → Nat
  | _, [] => 0
  | first, next :: rest =>
      (if next.readAt = first.readAt ∧ ∃ later ∈ rest, next.readAt < later.readAt then
        d.count next - d.count first else 0) + lost next rest

/-- No counter moves at a repeated clock reading that a later one with elapsed time follows. -/
def StillWhileRepeated : Reading → List Reading → Prop
  | _, [] => True
  | first, next :: rest =>
      (next.readAt = first.readAt → (∃ later ∈ rest, next.readAt < later.readAt) →
        d.count next = d.count first) ∧ StillWhileRepeated next rest

variable {d} {first : Reading} {rest : List Reading}

/-- Without elapsed time nothing counts. -/
theorem credited_of_not_elapses (hsteady : Steady (first :: rest))
    (hnone : ¬ ∃ later ∈ rest, first.readAt < later.readAt) (found : Nat) :
    credited d first rest = 0 ∧ lost d first rest = 0 ∧ lastCounter d found first rest = found := by
  induction rest generalizing first with
  | nil => exact ⟨rfl, rfl, rfl⟩
  | cons next rest ih =>
      have hnot : ¬ first.readAt < next.readAt :=
        fun hlt => hnone ⟨next, List.mem_cons_self, hlt⟩
      have hsame : first.readAt = next.readAt := Nat.le_antisymm hsteady.readAt_le (by omega)
      have hrest : ¬ ∃ later ∈ rest, next.readAt < later.readAt := by
        rintro ⟨later, hlater, hlt⟩
        exact hnone ⟨later, List.mem_cons_of_mem _ hlater, hsame ▸ hlt⟩
      obtain ⟨hcredited, hlost, hlast⟩ := ih hsteady.tail hrest
      refine ⟨?_, ?_, ?_⟩
      · rw [credited, if_neg hnot, hcredited]
      · rw [lost, if_neg fun h => hrest h.2, hlost]
      · rw [lastCounter, if_neg hnot, hlast]

theorem credited_add_lost_of_elapses (hsteady : Steady (first :: rest))
    (helapses : ∃ later ∈ rest, first.readAt < later.readAt) (found : Nat) :
    d.count first + credited d first rest + lost d first rest =
      lastCounter d found first rest := by
  induction rest generalizing first found with
  | nil =>
      obtain ⟨_, hmem, _⟩ := helapses
      exact absurd hmem List.not_mem_nil
  | cons next rest ih =>
      have hle := hsteady.count_le d
      rw [credited, lost, lastCounter]
      by_cases hlt : first.readAt < next.readAt
      · rw [if_pos hlt, if_neg fun h => Nat.ne_of_gt hlt h.1, if_pos hlt]
        by_cases hrest : ∃ later ∈ rest, next.readAt < later.readAt
        · have := ih hsteady.tail hrest (d.count next)
          omega
        · obtain ⟨hcredited, hlost, hlast⟩ :=
            credited_of_not_elapses (d := d) hsteady.tail hrest (d.count next)
          omega
      · have hsame : next.readAt = first.readAt :=
          Nat.le_antisymm (by omega) hsteady.readAt_le
        have hrest : ∃ later ∈ rest, next.readAt < later.readAt := by
          obtain ⟨later, hmem, hafter⟩ := helapses
          rcases List.mem_cons.mp hmem with rfl | hmem
          · exact absurd hafter hlt
          · exact ⟨later, hmem, hsame ▸ hafter⟩
        rw [if_neg hlt, if_pos ⟨hsame, hrest⟩, if_neg hlt]
        have := ih hsteady.tail hrest found
        omega

/-- The bytes that count and the bytes that are lost make up what the counter moved. -/
theorem credited_add_lost (hsteady : Steady (first :: rest)) :
    d.count first + credited d first rest + lost d first rest =
      lastCounter d (d.count first) first rest := by
  by_cases helapses : ∃ later ∈ rest, first.readAt < later.readAt
  · exact credited_add_lost_of_elapses hsteady helapses _
  · obtain ⟨hcredited, hlost, hlast⟩ :=
      credited_of_not_elapses (d := d) hsteady helapses (d.count first)
    omega

theorem lastCounter_congr {other : Reading} (hsame : first.readAt = other.readAt) (found : Nat) :
    lastCounter d found first rest = lastCounter d found other rest := by
  cases rest with
  | nil => rfl
  | cons next rest => rw [lastCounter, lastCounter, hsame]

/-- With a held baseline all bytes count. -/
theorem creditedHeld_add (hsteady : Steady (first :: rest)) :
    d.count first + creditedHeld d first rest = lastCounter d (d.count first) first rest := by
  induction rest generalizing first with
  | nil => rfl
  | cons next rest ih =>
      rw [creditedHeld, lastCounter]
      by_cases hlt : first.readAt < next.readAt
      · have hle := hsteady.count_le d
        have := ih hsteady.tail
        rw [if_pos hlt, if_pos hlt]
        omega
      · have hsame : first.readAt = next.readAt :=
          Nat.le_antisymm hsteady.readAt_le (by omega)
        rw [if_neg hlt, if_neg hlt, ih hsteady.skip, lastCounter_congr hsame]

theorem lost_eq_zero_iff (hsteady : Steady (first :: rest)) :
    lost d first rest = 0 ↔ StillWhileRepeated d first rest := by
  induction rest generalizing first with
  | nil => exact iff_of_true rfl trivial
  | cons next rest ih =>
      have hle := hsteady.count_le d
      rw [lost, StillWhileRepeated, Nat.add_eq_zero_iff, ih hsteady.tail]
      refine and_congr_left fun _ => ?_
      split
      next hrepeated =>
        constructor
        · exact fun hzero _ _ => by omega
        · intro hstill
          have := hstill hrepeated.1 hrepeated.2
          omega
      next hmoving => exact iff_of_true rfl fun hsame helapses => absurd ⟨hsame, helapses⟩ hmoving

end

/-! ## What the displays add up to -/

section

variable {σ Input : Type} (step : σ → Input → σ) (shown : σ → Option (ℚ × ℚ))
  (clock : Input → Nat) (d : Direction)

/-- The sum of rate and elapsed time, over the updates of a display with elapsed time since the
update before. -/
def displayedBytes : σ → Nat → List Input → ℚ
  | _, _, [] => 0
  | state, before, input :: rest =>
      (if before < clock input then
        (((shown (step state input)).map d.rateOf).getD 0) * seconds (clock input - before)
      else 0) + displayedBytes (step state input) (clock input) rest

end

/-- A snapshot with an entry of the connection; a later entry of the id would replace it. -/
structure FollowedSnapshot (id : Nat) where
  connections : List ConnectionSnapshot
  readAt : Nat
  entry : ConnectionSnapshot
  present : connections.reverse.find? (fun c => c.id == id) = some entry

namespace FollowedSnapshot

def reading {id : Nat} (snapshot : FollowedSnapshot id) : Reading :=
  ⟨snapshot.entry.bytesUp, snapshot.entry.bytesDown, snapshot.readAt⟩

end FollowedSnapshot

/-! ## Single updates -/

theorem seconds_pos_iff (nanos : Nat) : 0 < seconds nanos ↔ 0 < nanos := by
  rw [seconds, div_pos_iff_of_pos_right (by norm_num), Nat.cast_pos]

theorem rate_mul_seconds (now before : Nat) {nanos : Nat} (hpos : 0 < nanos) :
    rate now before (seconds nanos) * seconds nanos = ((now - before : Nat) : ℚ) :=
  div_mul_cancel₀ _ (ne_of_gt ((seconds_pos_iff nanos).mpr hpos))

namespace ConnectionRates

variable (self : ConnectionRates) (readAt : Nat)

/-- Whether a rate is known depends on the id and the clock alone. -/
theorem rateNow_eq_none {c other : ConnectionSnapshot} (hid : c.id = other.id)
    (hnone : self.rateNow c readAt = none) : self.rateNow other readAt = none := by
  unfold rateNow at hnone ⊢
  rw [hid] at hnone
  cases hlast : self.last[other.id]? with
  | none => rfl
  | some seen =>
      rw [hlast] at hnone
      dsimp only at hnone ⊢
      split at hnone
      next => cases hnone
      next hstill => rw [if_neg hstill, hnone]

theorem update_concat (past : List ConnectionSnapshot) (c : ConnectionSnapshot) :
    self.update (past ++ [c]) readAt = self.follow readAt (self.update past readAt) c := by
  rw [update, List.foldl_append]
  rfl

/-- After an update a connection has the counters of its last entry. -/
theorem update_last (connections : List ConnectionSnapshot) (id : Nat) :
    (self.update connections readAt).last[id]? =
      (connections.reverse.find? fun c => c.id == id).map fun c =>
        (c.bytesUp, c.bytesDown, readAt) := by
  induction connections using List.reverseRecOn with
  | nil => rfl
  | append_singleton past c ih =>
      rw [update_concat, follow, List.reverse_append, List.reverse_singleton,
        List.singleton_append]
      dsimp only
      rw [Std.TreeMap.getElem?_insert, ih]
      by_cases hid : c.id = id
      · rw [List.find?_cons_of_pos (by simpa using hid), if_pos (Nat.compare_eq_eq.mpr hid)]
        rfl
      · rw [List.find?_cons_of_neg (by simpa using hid), if_neg (mt Nat.compare_eq_eq.mp hid)]

/-- And the rate that its last entry gives it. -/
theorem update_rates (connections : List ConnectionSnapshot) (id : Nat) :
    (self.update connections readAt).rates[id]? =
      (connections.reverse.find? fun c => c.id == id).bind fun c => self.rateNow c readAt := by
  induction connections using List.reverseRecOn with
  | nil => rfl
  | append_singleton past c ih =>
      rw [update_concat, follow, List.reverse_append, List.reverse_singleton,
        List.singleton_append]
      by_cases hid : c.id = id
      · rw [List.find?_cons_of_pos (by simpa using hid), Option.bind_some]
        cases hnow : self.rateNow c readAt with
        | some known =>
            dsimp only
            rw [Std.TreeMap.getElem?_insert, if_pos (Nat.compare_eq_eq.mpr hid)]
        | none =>
            -- an earlier entry of the id has no rate either
            dsimp only
            rw [ih, Option.bind_eq_none_iff]
            intro other hother
            have hsame : other.id = id := by simpa using List.find?_some hother
            exact self.rateNow_eq_none readAt (hid.trans hsame.symm) hnow
      · rw [List.find?_cons_of_neg (by simpa using hid)]
        cases self.rateNow c readAt with
        | some known =>
            dsimp only
            rw [Std.TreeMap.getElem?_insert, if_neg (mt Nat.compare_eq_eq.mp hid), ih]
        | none => exact ih

end ConnectionRates

/-! ## Whole sequences -/

/-- What the display of a connection adds up to over a sequence of snapshots. -/
def connectionBytes {id : Nat} (d : Direction) (first : FollowedSnapshot id)
    (rest : List (FollowedSnapshot id)) : ℚ :=
  displayedBytes (fun (rates : ConnectionRates) snapshot =>
      rates.update snapshot.connections snapshot.readAt)
    (fun rates => rates.rates[id]?) FollowedSnapshot.readAt d
    (ConnectionRates.update {} first.connections first.readAt) first.readAt rest

/-- What the display of the whole proxy adds up to over a sequence of readings. -/
def throughputBytes (capacity : Nat) (d : Direction) (first : Reading) (rest : List Reading) : ℚ :=
  displayedBytes (fun (throughput : Throughput) reading =>
      throughput.sample reading.up reading.down reading.readAt)
    Throughput.latest Reading.readAt d
    (Throughput.sample { capacity } first.up first.down first.readAt) first.readAt rest

section

variable (d : Direction)

/-- A rate over elapsed time gives back the bytes that moved in it, in either direction. -/
theorem rateOf_mul_seconds (now base : Reading) {nanos : Nat} (hpos : 0 < nanos) :
    d.rateOf (rate now.up base.up (seconds nanos), rate now.down base.down (seconds nanos)) *
      seconds nanos = ((d.count now - d.count base : Nat) : ℚ) := by
  cases d with
  | up => exact rate_mul_seconds now.up base.up hpos
  | down => exact rate_mul_seconds now.down base.down hpos

variable {id : Nat}

/-- With time since the counters held, an update gives the connection their rate. -/
theorem FollowedSnapshot.update_rates {rates : ConnectionRates} {first next : FollowedSnapshot id}
    (hlast : rates.last[id]? = some (first.reading.up, first.reading.down, first.readAt))
    (hlt : first.readAt < next.readAt) :
    (rates.update next.connections next.readAt).rates[id]? =
      some (rate next.reading.up first.reading.up (seconds (next.readAt - first.readAt)),
        rate next.reading.down first.reading.down (seconds (next.readAt - first.readAt))) := by
  have hid : next.entry.id = id := by simpa using List.find?_some next.present
  have hpos : 0 < seconds (next.readAt - first.readAt) := (seconds_pos_iff _).mpr (by omega)
  rw [ConnectionRates.update_rates, next.present, Option.bind_some, ConnectionRates.rateNow, hid,
    hlast]
  exact if_pos hpos

theorem FollowedSnapshot.update_last (rates : ConnectionRates) (next : FollowedSnapshot id) :
    (rates.update next.connections next.readAt).last[id]? =
      some (next.reading.up, next.reading.down, next.readAt) := by
  rw [ConnectionRates.update_last, next.present]
  rfl

/-- The baseline of a connection moves with every snapshot. -/
theorem connectionBytes_eq (first : FollowedSnapshot id) (rest : List (FollowedSnapshot id)) :
    connectionBytes d first rest =
      (credited d first.reading (rest.map FollowedSnapshot.reading) : ℚ) := by
  rw [connectionBytes]
  have hlast := first.update_last {}
  generalize ConnectionRates.update {} first.connections first.readAt = rates at hlast ⊢
  induction rest generalizing first rates with
  | nil => exact Nat.cast_zero.symm
  | cons next rest ih =>
      rw [displayedBytes, List.map_cons, credited, ih next _ (next.update_last rates),
        Nat.cast_add]
      congr 1
      by_cases hlt : first.readAt < next.readAt
      · rw [if_pos hlt, FollowedSnapshot.update_rates hlast hlt]
        exact (rateOf_mul_seconds d next.reading first.reading (by omega)).trans
          (congrArg Nat.cast (if_pos hlt).symm)
      · rw [if_neg hlt]
        exact Nat.cast_zero.symm.trans (congrArg Nat.cast (if_neg hlt).symm)

section

variable {throughput : Throughput} {base : Reading}
  (hprevious : throughput.previous = some (base.up, base.down, base.readAt)) (next : Reading)
include hprevious

theorem Throughput.sample_of_elapsed (hlt : base.readAt < next.readAt) :
    (throughput.sample next.up next.down next.readAt).latest =
        some (rate next.up base.up (seconds (next.readAt - base.readAt)),
          rate next.down base.down (seconds (next.readAt - base.readAt))) ∧
      (throughput.sample next.up next.down next.readAt).previous =
        some (next.up, next.down, next.readAt) := by
  have hpos : 0 < seconds (next.readAt - base.readAt) := (seconds_pos_iff _).mpr (by omega)
  rw [sample, hprevious]
  dsimp only
  rw [if_neg (not_le.mpr hpos)]
  exact ⟨List.getLast?_concat, rfl⟩

theorem Throughput.sample_of_not_elapsed (hnot : ¬ base.readAt < next.readAt) :
    throughput.sample next.up next.down next.readAt = throughput := by
  have hzero : seconds (next.readAt - base.readAt) ≤ 0 :=
    not_lt.mp (mt (seconds_pos_iff _).mp (by omega))
  rw [sample, hprevious]
  exact if_pos hzero

end

/-- The baseline of the whole proxy is held while no time elapses. -/
theorem throughputBytes_eq (capacity : Nat) {first : Reading} {rest : List Reading}
    (hsteady : Steady (first :: rest)) :
    throughputBytes capacity d first rest = (creditedHeld d first rest : ℚ) := by
  rw [throughputBytes]
  have hprevious : (Throughput.sample { capacity } first.up first.down first.readAt).previous =
      some (first.up, first.down, first.readAt) := rfl
  generalize Throughput.sample { capacity } first.up first.down first.readAt = throughput
    at hprevious ⊢
  induction rest generalizing first throughput with
  | nil => exact Nat.cast_zero.symm
  | cons next rest ih =>
      rw [displayedBytes, creditedHeld]
      by_cases hlt : first.readAt < next.readAt
      · obtain ⟨hlatest, hnext⟩ := Throughput.sample_of_elapsed hprevious next hlt
        rw [if_pos hlt, if_pos hlt, hlatest, ih hsteady.tail _ hnext, Nat.cast_add]
        congr 1
        exact rateOf_mul_seconds d next first (by omega)
      · have hsame : next.readAt = first.readAt :=
          Nat.le_antisymm (by omega) hsteady.readAt_le
        rw [if_neg hlt, if_neg hlt, Throughput.sample_of_not_elapsed hprevious next hlt, hsame,
          ih hsteady.skip throughput hprevious, zero_add]

end

/-- The rates of a connection add up to what its counter moved exactly when the counter is
still at every repeated clock reading that a later one with elapsed time follows; the rates of
the whole proxy always do. -/
theorem displayed_rates_add_up {id : Nat} (first : FollowedSnapshot id)
    (rest : List (FollowedSnapshot id))
    (hsteady : Steady (first.reading :: rest.map FollowedSnapshot.reading)) (d : Direction) :
    (connectionBytes d first rest =
        (lastCounter d (d.count first.reading) first.reading
          (rest.map FollowedSnapshot.reading) : ℚ) - d.count first.reading ↔
      StillWhileRepeated d first.reading (rest.map FollowedSnapshot.reading)) ∧
      ∀ (capacity : Nat) (total : Reading) (totals : List Reading), Steady (total :: totals) →
        throughputBytes capacity d total totals =
          (lastCounter d (d.count total) total totals : ℚ) - d.count total := by
  refine ⟨?_, fun capacity total totals htotals => ?_⟩
  · have hsum : (d.count first.reading : ℚ) +
        credited d first.reading (rest.map FollowedSnapshot.reading) +
        lost d first.reading (rest.map FollowedSnapshot.reading) =
          lastCounter d (d.count first.reading) first.reading
            (rest.map FollowedSnapshot.reading) := by
      exact_mod_cast credited_add_lost hsteady
    rw [← lost_eq_zero_iff hsteady, connectionBytes_eq, ← hsum, ← Nat.cast_eq_zero (R := ℚ)]
    constructor
    · intro heq
      linarith
    · intro hzero
      linarith
  · have hsum : (d.count total : ℚ) + creditedHeld d total totals =
        lastCounter d (d.count total) total totals := by
      exact_mod_cast creditedHeld_add htotals
    rw [throughputBytes_eq d capacity htotals, ← hsum]
    ring

/-! ## A clock read twice -/

def tunnel (bytes : Nat) : ConnectionSnapshot :=
  ⟨1, .tunnel, "example.com:443".toList, "direct".toList, none, 0, 0, bytes, bytes, .open⟩

/-- The tunnel, alone in its snapshot. -/
def tunnelAt (bytes readAt : Nat) : FollowedSnapshot 1 :=
  ⟨[tunnel bytes], readAt, tunnel bytes, rfl⟩

/-- The counter is still while the clock is. -/
def stillTunnel : List (FollowedSnapshot 1) :=
  [tunnelAt 1000 6000000000, tunnelAt 1000 6000000000, tunnelAt 4000 8000000000]

theorem displayed_rates_add_up_sample :
    connectionBytes .up (tunnelAt 0 5000000000) stillTunnel = ((4000 : Nat) : ℚ) - (0 : Nat) := by
  have hsteady : Steady ((tunnelAt 0 5000000000).reading ::
      stillTunnel.map FollowedSnapshot.reading) :=
    ⟨by decide, fun d => by cases d <;> decide⟩
  exact (displayed_rates_add_up (tunnelAt 0 5000000000) stillTunnel hsteady .up).1.mpr
    ⟨nofun, fun _ _ => rfl, nofun, trivial⟩

/-- The counter moves while the clock is read twice at one time. -/
def movingTunnel : List (FollowedSnapshot 1) :=
  [tunnelAt 1000 5000000000, tunnelAt 2000 6000000000]

/-- Of the 2000 bytes that moved, those before the repeated reading are in no rate of the
connection; the rate of the whole proxy over the same readings has them. -/
theorem repeatedReading_loses_bytes :
    connectionBytes .up (tunnelAt 0 5000000000) movingTunnel = ((1000 : Nat) : ℚ) ∧
      connectionBytes .up (tunnelAt 0 5000000000) movingTunnel ≠
        (lastCounter .up 0 (tunnelAt 0 5000000000).reading
          (movingTunnel.map FollowedSnapshot.reading) : ℚ) - (0 : Nat) ∧
      throughputBytes 60 .up (tunnelAt 0 5000000000).reading
        (movingTunnel.map FollowedSnapshot.reading) = ((2000 : Nat) : ℚ) := by
  have hsteady : Steady ((tunnelAt 0 5000000000).reading ::
      movingTunnel.map FollowedSnapshot.reading) :=
    ⟨by decide, fun d => by cases d <;> decide⟩
  have hcredited : connectionBytes .up (tunnelAt 0 5000000000) movingTunnel =
      ((1000 : Nat) : ℚ) := by
    rw [connectionBytes_eq]
    exact congrArg Nat.cast (by decide)
  have hlast : lastCounter .up 0 (tunnelAt 0 5000000000).reading
      (movingTunnel.map FollowedSnapshot.reading) = 2000 := by decide
  refine ⟨hcredited, ?_, ?_⟩
  · rw [hcredited, hlast]
    norm_num
  · rw [throughputBytes_eq .up 60 hsteady]
    exact congrArg Nat.cast (by decide)

end Zicade.Ui
