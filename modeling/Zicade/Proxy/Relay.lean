import Mathlib.Algebra.BigOperators.Group.List.Basic
import Mathlib.Algebra.GroupWithZero.Nat
import Zicade.Foundation.Runs
import Zicade.Proxy.Pump
import Zicade.Proxy.Tracker

/-! # A pump between its awaits

The pump again, with the clock its writes are timed by, the half-close at the end of the
source, the reports of what was relayed, and the chance that it is dropped at any await.
-/

namespace Zicade.Proxy

open Zicade.Foundation

/-- `WRITE_STALL_TIMEOUT`, in milliseconds. -/
def writeStallTimeout : Nat := 60000

/-- The await the pump is at. A write runs to its deadline; `closing` waits for the shutdown
of the sink. -/
inductive RelayPhase
  | reading
  | writing (chunk : Nat) (rest : Bytes) (deadline : Nat)
  | closing
  | settled (result : Except PumpError Unit)
  | dropped
  deriving DecidableEq

structure Relay where
  received : Bytes
  accepted : Bytes
  /-- The source reached its end. -/
  ended : Bool
  /-- The write side of the sink was shut down. -/
  halfClosed : Bool
  counter : Nat
  /-- The calls of `relayed`. -/
  reported : List Nat
  now : Nat
  phase : RelayPhase

def Relay.new : Relay := ⟨[], [], false, false, 0, [], 0, .reading⟩

inductive RelayEvent
  | chunk (bytes : Bytes)
  | eof
  | readError (err : IoError)
  | accepted (n : Nat)
  | writeError (err : IoError)
  | stalled
  | shutDown (result : Except IoError Unit)
  | elapsed (millis : Nat)
  | drop
  deriving DecidableEq

def Relay.step (relay : Relay) : RelayEvent → Option Relay
  | .chunk bytes =>
      match relay.phase with
      | .reading =>
          if bytes ≠ [] ∧ bytes.length ≤ bufferSize then
            some { relay with
              received := relay.received ++ bytes
              phase := .writing bytes.length bytes (relay.now + writeStallTimeout) }
          else none
      | _ => none
  | .eof =>
      match relay.phase with
      | .reading => some { relay with ended := true, halfClosed := true, phase := .closing }
      | _ => none
  | .readError err =>
      match relay.phase with
      | .reading => some { relay with phase := .settled (.error ⟨.read, err⟩) }
      | _ => none
  | .accepted n =>
      match relay.phase with
      | .writing chunk rest deadline =>
          if rest.length < n then none
          else if n = 0 then some { relay with phase := .settled (.error ⟨.write, writeZero⟩) }
          else if n = rest.length then
            some { relay with
              accepted := relay.accepted ++ rest
              reported := relay.reported ++ [chunk]
              counter := relay.counter + chunk
              phase := .reading }
          else
            some { relay with
              accepted := relay.accepted ++ rest.take n
              phase := .writing chunk (rest.drop n) deadline }
      | _ => none
  | .writeError err =>
      match relay.phase with
      | .writing _ _ _ => some { relay with phase := .settled (.error ⟨.write, err⟩) }
      | _ => none
  | .stalled =>
      match relay.phase with
      | .writing _ _ deadline =>
          if deadline ≤ relay.now then
            some { relay with phase := .settled (.error ⟨.write, writeStalled⟩) }
          else none
      | _ => none
  | .shutDown _ =>
      -- what the shutdown gives is not looked at
      match relay.phase with
      | .closing => some { relay with phase := .settled (.ok ()) }
      | _ => none
  | .elapsed millis => some { relay with now := relay.now + millis }
  | .drop =>
      match relay.phase with
      | .settled _ => none
      | .dropped => none
      | _ => some { relay with phase := .dropped }

/-! ## One event -/

/-- What one event can do. -/
inductive Relay.Moves (relay : Relay) : Relay → Prop
  | chunk {bytes : Bytes} (hreading : relay.phase = .reading) (hne : bytes ≠ [])
      (hsize : bytes.length ≤ bufferSize) :
      Moves relay { relay with
        received := relay.received ++ bytes
        phase := .writing bytes.length bytes (relay.now + writeStallTimeout) }
  | eof (hreading : relay.phase = .reading) :
      Moves relay { relay with ended := true, halfClosed := true, phase := .closing }
  | tookAll {chunk deadline : Nat} {rest : Bytes}
      (hwriting : relay.phase = .writing chunk rest deadline) (hpos : rest.length ≠ 0) :
      Moves relay { relay with
        accepted := relay.accepted ++ rest
        reported := relay.reported ++ [chunk]
        counter := relay.counter + chunk
        phase := .reading }
  | tookSome {chunk deadline n : Nat} {rest : Bytes}
      (hwriting : relay.phase = .writing chunk rest deadline) (hpos : n ≠ 0)
      (hn : n < rest.length) :
      Moves relay { relay with
        accepted := relay.accepted ++ rest.take n
        phase := .writing chunk (rest.drop n) deadline }
  | shutDown (hclosing : relay.phase = .closing) :
      Moves relay { relay with phase := .settled (.ok ()) }
  | readFails {err : IoError} (hreading : relay.phase = .reading) :
      Moves relay { relay with phase := .settled (.error ⟨.read, err⟩) }
  | writeFails {chunk deadline : Nat} {rest : Bytes} {err : IoError}
      (hwriting : relay.phase = .writing chunk rest deadline) :
      Moves relay { relay with phase := .settled (.error ⟨.write, err⟩) }
  | elapsed (millis : Nat) : Moves relay { relay with now := relay.now + millis }
  | dropped (hunsettled : ∀ result, relay.phase ≠ .settled result) :
      Moves relay { relay with phase := .dropped }

theorem Relay.step_moves {relay next : Relay} {event : RelayEvent}
    (hstep : relay.step event = some next) : relay.Moves next := by
  cases event with
  | chunk bytes =>
      dsimp only [step] at hstep
      split at hstep
      next hphase =>
        split at hstep
        next hbytes => exact Option.some.inj hstep ▸ .chunk hphase hbytes.1 hbytes.2
        next => cases hstep
      next => cases hstep
  | eof =>
      dsimp only [step] at hstep
      split at hstep
      next hphase => exact Option.some.inj hstep ▸ .eof hphase
      next => cases hstep
  | readError err =>
      dsimp only [step] at hstep
      split at hstep
      next hphase => exact Option.some.inj hstep ▸ .readFails hphase
      next => cases hstep
  | accepted n =>
      dsimp only [step] at hstep
      split at hstep
      next chunk rest deadline hphase =>
        split at hstep
        next => cases hstep
        next hn =>
          split at hstep
          next => exact Option.some.inj hstep ▸ .writeFails hphase
          next hpos =>
            split at hstep
            next hall => exact Option.some.inj hstep ▸ .tookAll hphase (hall ▸ hpos)
            next hall => exact Option.some.inj hstep ▸ .tookSome hphase hpos (by omega)
      next => cases hstep
  | writeError err =>
      dsimp only [step] at hstep
      split at hstep
      next chunk rest deadline hphase =>
        exact Option.some.inj hstep ▸ .writeFails hphase
      next => cases hstep
  | stalled =>
      dsimp only [step] at hstep
      split at hstep
      next chunk rest deadline hphase =>
        split at hstep
        next => exact Option.some.inj hstep ▸ .writeFails hphase
        next => cases hstep
      next => cases hstep
  | shutDown result =>
      dsimp only [step] at hstep
      split at hstep
      next hphase => exact Option.some.inj hstep ▸ .shutDown hphase
      next => cases hstep
  | elapsed millis => exact Option.some.inj hstep ▸ .elapsed millis
  | drop =>
      dsimp only [step] at hstep
      split at hstep
      next => cases hstep
      next => cases hstep
      next hsettled _ => exact Option.some.inj hstep ▸ .dropped hsettled

/-! ## Every run -/

/-- What holds at every await: the unwritten rest of a chunk is all that the sink lacks, and
only a whole chunk is counted and reported. -/
structure Relay.Holds (relay : Relay) : Prop where
  counted : relay.counter = relay.reported.sum
  reading : relay.phase = .reading →
    relay.accepted = relay.received ∧ relay.counter = relay.accepted.length
  writing : ∀ chunk rest deadline, relay.phase = .writing chunk rest deadline →
    relay.accepted ++ rest = relay.received ∧ chunk ≤ bufferSize ∧
      relay.counter + chunk = relay.received.length
  taken : relay.accepted <+: relay.received
  behind : relay.counter ≤ relay.accepted.length ∧
    relay.accepted.length ≤ relay.counter + bufferSize
  closing : relay.phase = .closing ∨ relay.phase = .settled (.ok ()) → relay.ended = true
  ended : relay.ended = true → relay.accepted = relay.received ∧
    (relay.phase = .closing ∨ relay.phase = .settled (.ok ()) ∨ relay.phase = .dropped)
  halfClosed : relay.halfClosed = relay.ended

theorem Relay.holds_new : Relay.new.Holds where
  counted := rfl
  reading _ := ⟨rfl, rfl⟩
  writing _ _ _ hphase := by cases hphase
  taken := List.prefix_rfl
  behind := ⟨le_rfl, Nat.zero_le _⟩
  closing h := by rcases h with h | h <;> cases h
  ended h := by cases h
  halfClosed := rfl

theorem Relay.Holds.moves {relay next : Relay} (hholds : relay.Holds) (hmoves : relay.Moves next) :
    next.Holds := by
  -- before its end the source may still give more
  have hopen : ∀ phase, relay.phase = phase → phase ≠ .closing → phase ≠ .settled (.ok ()) →
      phase ≠ .dropped → relay.ended = false := by
    intro phase hphase hclosing hsettled hdropped
    cases hended : relay.ended with
    | false => rfl
    | true =>
        rcases (hholds.ended hended).2 with h | h | h
        · exact absurd (hphase.symm.trans h) hclosing
        · exact absurd (hphase.symm.trans h) hsettled
        · exact absurd (hphase.symm.trans h) hdropped
  cases hmoves with
  | chunk hreading hne hsize =>
      obtain ⟨hsame, hcount⟩ := hholds.reading hreading
      have hended := hopen _ hreading (by simp) (by simp) (by simp)
      refine ⟨hholds.counted, by simp, ?_, ?_, hholds.behind, by simp, by simp [hended],
        hholds.halfClosed⟩
      · rintro chunk rest deadline hphase
        obtain ⟨rfl, rfl, -⟩ := RelayPhase.writing.inj hphase
        exact ⟨by rw [hsame], hsize, by rw [hcount, hsame, List.length_append]⟩
      · exact hsame ▸ List.prefix_append _ _
  | eof hreading =>
      obtain ⟨hsame, -⟩ := hholds.reading hreading
      exact ⟨hholds.counted, by simp, by simp, hholds.taken, hholds.behind, by simp,
        fun _ => ⟨hsame, .inl rfl⟩, rfl⟩
  | @tookAll chunk deadline rest hwriting hpos =>
      obtain ⟨hsame, hsize, hcount⟩ := hholds.writing _ _ _ hwriting
      have hended := hopen _ hwriting (by simp) (by simp) (by simp)
      have hlength : relay.counter + chunk = (relay.accepted ++ rest).length := by
        rw [hcount, hsame]
      refine ⟨?_, fun _ => ⟨hsame, hlength⟩, by simp, hsame ▸ List.prefix_rfl, ?_, by simp,
        by simp [hended], hholds.halfClosed⟩
      · simp [hholds.counted]
      · rw [← hlength]
        exact ⟨le_rfl, Nat.le_add_right _ _⟩
  | @tookSome chunk deadline n rest hwriting hpos hn =>
      obtain ⟨hsame, hsize, hcount⟩ := hholds.writing _ _ _ hwriting
      have hended := hopen _ hwriting (by simp) (by simp) (by simp)
      have hwhole : relay.accepted ++ rest.take n ++ rest.drop n = relay.received := by
        rw [List.append_assoc, List.take_append_drop, hsame]
      have htotal : relay.accepted.length + rest.length = relay.counter + chunk := by
        rw [hcount, ← hsame, List.length_append]
      refine ⟨hholds.counted, by simp, ?_, ⟨_, hwhole⟩, ?_, by simp, by simp [hended],
        hholds.halfClosed⟩
      · rintro chunk' rest' deadline' hphase
        obtain ⟨rfl, rfl, -⟩ := RelayPhase.writing.inj hphase
        exact ⟨hwhole, hsize, hcount⟩
      · have hbehind := hholds.behind
        dsimp only
        rw [List.length_append, List.length_take]
        omega
  | shutDown hclosing =>
      have hended := hholds.closing (.inl hclosing)
      exact ⟨hholds.counted, by simp, by simp, hholds.taken, hholds.behind, fun _ => hended,
        fun _ => ⟨(hholds.ended hended).1, .inr (.inl rfl)⟩, hholds.halfClosed⟩
  | readFails hreading =>
      have hended := hopen _ hreading (by simp) (by simp) (by simp)
      exact ⟨hholds.counted, by simp, by simp, hholds.taken, hholds.behind, by simp,
        by simp [hended], hholds.halfClosed⟩
  | writeFails hwriting =>
      have hended := hopen _ hwriting (by simp) (by simp) (by simp)
      exact ⟨hholds.counted, by simp, by simp, hholds.taken, hholds.behind, by simp,
        by simp [hended], hholds.halfClosed⟩
  | elapsed millis =>
      exact ⟨hholds.counted, hholds.reading, hholds.writing, hholds.taken, hholds.behind,
        hholds.closing, hholds.ended, hholds.halfClosed⟩
  | dropped _ =>
      exact ⟨hholds.counted, by simp, by simp, hholds.taken, hholds.behind, by simp,
        fun hended => ⟨(hholds.ended hended).1, .inr (.inr rfl)⟩, hholds.halfClosed⟩

/-- Reports that each add their number to a count add their sum to it. -/
theorem count_foldl {γ : Type*} {add : γ → Nat → γ} (count : γ → Nat)
    (hadd : ∀ state n, count (add state n) = count state + n) (reported : List Nat) (state : γ) :
    count (reported.foldl add state) = count state + reported.sum := by
  induction reported generalizing state with
  | nil => rfl
  | cons n rest ih => rw [List.foldl_cons, ih, hadd, List.sum_cons, Nat.add_assoc]

/-- The sink has a prefix of what was read. The pump succeeds exactly if the source ended and
the sink has all of it, and only then shuts the sink down. What it counts is what it reported,
no more than the sink has, and less by a buffer at most. -/
structure Relay.Faithful (relay : Relay) : Prop where
  taken : relay.accepted <+: relay.received
  returns : ∀ result, relay.phase = .settled result →
    (result = .ok () ↔ relay.ended = true ∧ relay.accepted = relay.received)
  succeeds : relay.ended = true →
    relay.phase = .closing ∨ relay.phase = .settled (.ok ()) ∨ relay.phase = .dropped
  halfCloses : relay.halfClosed = true → relay.ended = true ∧ relay.accepted = relay.received
  counted : relay.counter = relay.reported.sum
  tracked : ∀ tracked : Tracked,
    (relay.reported.foldl Tracked.addUp tracked).entry.up = tracked.entry.up + relay.counter ∧
      (relay.reported.foldl Tracked.addDown tracked).entry.down =
        tracked.entry.down + relay.counter
  behind : relay.counter ≤ relay.accepted.length ∧
    relay.accepted.length ≤ relay.counter + bufferSize

theorem Relay.Holds.faithful {relay : Relay} (hholds : relay.Holds) : relay.Faithful where
  taken := hholds.taken
  returns := by
    intro result hsettled
    constructor
    · rintro rfl
      have hended := hholds.closing (.inr hsettled)
      exact ⟨hended, (hholds.ended hended).1⟩
    · rintro ⟨hended, -⟩
      rcases (hholds.ended hended).2 with h | h | h
      · rw [h] at hsettled
        cases hsettled
      · rw [h] at hsettled
        exact (RelayPhase.settled.inj hsettled).symm
      · rw [h] at hsettled
        cases hsettled
  succeeds hended := (hholds.ended hended).2
  halfCloses hclosed := by
    have hended := hholds.halfClosed ▸ hclosed
    exact ⟨hended, (hholds.ended hended).1⟩
  counted := hholds.counted
  tracked tracked := by
    rw [hholds.counted]
    exact ⟨count_foldl (fun tracked => tracked.entry.up) (fun _ _ => rfl) relay.reported tracked,
      count_foldl (fun tracked => tracked.entry.down) (fun _ _ => rfl) relay.reported tracked⟩
  behind := hholds.behind

/-- Whatever the source and the sink do, and whenever the pump is dropped. -/
theorem relay_faithful {events : List RelayEvent} {relay : Relay}
    (hrun : run Relay.step Relay.new events = some relay) : relay.Faithful :=
  (run_invariant Relay.Holds (fun _ _ _ hholds hstep => hholds.moves (Relay.step_moves hstep))
    Relay.holds_new hrun).faithful

/-- Two chunks, the first in two writes, and the end of the source. -/
theorem relay_faithful_sample :
    ∃ relay, run Relay.step Relay.new [.chunk [1, 2, 3], .accepted 2, .elapsed 59999, .accepted 1,
        .chunk [4], .accepted 1, .eof, .shutDown (.ok ())] = some relay ∧
      relay.phase = .settled (.ok ()) ∧ relay.accepted = [1, 2, 3, 4] ∧ relay.counter = 4 ∧
      relay.Faithful :=
  ⟨_, rfl, rfl, rfl, rfl, relay_faithful (show run Relay.step Relay.new [.chunk [1, 2, 3],
    .accepted 2, .elapsed 59999, .accepted 1, .chunk [4], .accepted 1, .eof, .shutDown (.ok ())] =
      some _ from rfl)⟩

/-! ## The pump of a splice -/

/-- A step of the pump without what it reports. -/
def Pump.next (pump : Pump) (event : PumpEvent) : Option Pump := (pump.step event).map Prod.fst

/-- The pump stands where the relay does, but for the clock, the shutdown and a drop. -/
structure Pump.Shows (pump : Pump) (relay : Relay) : Prop where
  received : pump.received = relay.received
  accepted : pump.accepted = relay.accepted
  counter : pump.counter = relay.counter
  phase : match relay.phase with
    | .reading => pump.phase = .reading
    | .writing chunk rest _ => pump.phase = .writing chunk rest
    | .closing => pump.phase = .settled (.ok ())
    | .settled result => pump.phase = .settled result
    | .dropped => True

theorem Pump.Shows.moves {pump : Pump} {relay next : Relay} (hshows : pump.Shows relay)
    (hmoves : relay.Moves next) :
    ∃ matching after, run Pump.next pump matching = some after ∧ after.Shows next := by
  obtain ⟨received, accepted, counter, phase⟩ := pump
  obtain ⟨rfl, rfl, rfl, hphase⟩ := hshows
  cases hmoves with
  | @chunk bytes hreading hne hsize =>
      rw [hreading] at hphase
      subst hphase
      refine ⟨[.chunk bytes], ⟨relay.received ++ bytes, relay.accepted, relay.counter,
        .writing bytes.length bytes⟩, ?_, ⟨rfl, rfl, rfl, rfl⟩⟩
      simp [run, Pump.next, Pump.step, hne, hsize]
  | eof hreading =>
      rw [hreading] at hphase
      subst hphase
      exact ⟨[.eof], _, rfl, ⟨rfl, rfl, rfl, rfl⟩⟩
  | @tookAll chunk deadline rest hwriting hpos =>
      rw [hwriting] at hphase
      subst hphase
      refine ⟨[.accepted rest.length], ⟨relay.received, relay.accepted ++ rest,
        relay.counter + chunk, .reading⟩, ?_, ⟨rfl, rfl, rfl, rfl⟩⟩
      have hne : rest ≠ [] := by
        rintro rfl
        exact hpos rfl
      simp [run, Pump.next, Pump.step, hne]
  | @tookSome chunk deadline n rest hwriting hpos hn =>
      rw [hwriting] at hphase
      subst hphase
      refine ⟨[.accepted n], ⟨relay.received, relay.accepted ++ rest.take n, relay.counter,
        .writing chunk (rest.drop n)⟩, ?_, ⟨rfl, rfl, rfl, rfl⟩⟩
      have hfits : ¬rest.length < n := by omega
      have hpart : n ≠ rest.length := by omega
      simp [run, Pump.next, Pump.step, hpos, hfits, hpart]
  | shutDown hclosing =>
      rw [hclosing] at hphase
      exact ⟨[], _, rfl, ⟨rfl, rfl, rfl, hphase⟩⟩
  | @readFails err hreading =>
      rw [hreading] at hphase
      subst hphase
      exact ⟨[.readError err], _, rfl, ⟨rfl, rfl, rfl, rfl⟩⟩
  | @writeFails chunk deadline rest err hwriting =>
      rw [hwriting] at hphase
      subst hphase
      exact ⟨[.writeError err], _, rfl, ⟨rfl, rfl, rfl, rfl⟩⟩
  | elapsed millis => exact ⟨[], _, rfl, ⟨rfl, rfl, rfl, hphase⟩⟩
  | dropped _ => exact ⟨[], _, rfl, ⟨rfl, rfl, rfl, trivial⟩⟩

/-- Every run of the relay is one of the pump. -/
theorem relay_shown {events : List RelayEvent} {relay : Relay}
    (hrun : run Relay.step Relay.new events = some relay) :
    ∃ matching pump, run Pump.next Pump.new matching = some pump ∧ pump.Shows relay :=
  run_simulated Pump.Shows ⟨rfl, rfl, rfl, rfl⟩
    (fun _ _ _ _ hshows hstep => hshows.moves (Relay.step_moves hstep)) hrun

end Zicade.Proxy
