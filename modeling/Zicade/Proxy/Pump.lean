import Zicade.Foundation.IoError
import Zicade.Foundation.Text

/-! # One direction of a tunnel

A pump reads a chunk, writes all of it, and reads on until the source ends or an
operation fails. What its sockets do is an event: the chunk a read returns, the
bytes one write takes, an end, an error, or a write that makes no progress.
-/

namespace Zicade.Proxy

open Zicade.Foundation

/-- `BUFFER_SIZE`. -/
def bufferSize : Nat := 256 * 1024

/-- Which socket operation failed: that of the source, or that of the sink. -/
inductive PumpOp
  | read
  | write
  deriving DecidableEq, Repr

structure PumpError where
  op : PumpOp
  err : IoError
  deriving DecidableEq, Repr

inductive PumpPhase
  | reading
  | writing (chunk : Nat) (rest : Bytes)
  | settled (result : Except PumpError Unit)
  deriving DecidableEq

/-- What was read from the source and taken by the sink so far, and the bytes
counted as relayed. -/
structure Pump where
  received : Bytes
  accepted : Bytes
  counter : Nat
  phase : PumpPhase

def Pump.new : Pump := ⟨[], [], 0, .reading⟩

inductive PumpEvent
  | chunk (bytes : Bytes)
  | eof
  | readError (err : IoError)
  | accepted (n : Nat)
  | writeError (err : IoError)
  | stalled
  deriving DecidableEq, Repr

/-- `write_all` on a sink that takes nothing. -/
def writeZero : IoError := ⟨.writeZero, "write zero"⟩

def writeStalled : IoError :=
  ⟨.timedOut, "write stalled for 60s (peer stopped consuming)"⟩

/-- One event of a pump, with the bytes it reports as relayed. -/
def Pump.step (pump : Pump) (event : PumpEvent) : Option (Pump × Nat) :=
  match pump.phase, event with
  | .reading, .chunk bytes =>
      if bytes ≠ [] ∧ bytes.length ≤ bufferSize then
        some ({ pump with
          received := pump.received ++ bytes, phase := .writing bytes.length bytes }, 0)
      else none
  | .reading, .eof => some ({ pump with phase := .settled (.ok ()) }, 0)
  | .reading, .readError err => some ({ pump with phase := .settled (.error ⟨.read, err⟩) }, 0)
  | .writing chunk rest, .accepted n =>
      if rest.length < n then none
      else if n = 0 then some ({ pump with phase := .settled (.error ⟨.write, writeZero⟩) }, 0)
      else if n = rest.length then
        some ({ pump with
          accepted := pump.accepted ++ rest, counter := pump.counter + chunk, phase := .reading },
          chunk)
      else
        some ({ pump with
          accepted := pump.accepted ++ rest.take n, phase := .writing chunk (rest.drop n) }, 0)
  | .writing _ _, .writeError err =>
      some ({ pump with phase := .settled (.error ⟨.write, err⟩) }, 0)
  | .writing _ _, .stalled =>
      some ({ pump with phase := .settled (.error ⟨.write, writeStalled⟩) }, 0)
  | _, _ => none

/-- The event makes a write fail. -/
def PumpEvent.failsWrite : PumpEvent → Bool
  | .accepted n => n == 0
  | .writeError _ => true
  | .stalled => true
  | .chunk _ => false
  | .eof => false
  | .readError _ => false

/-- What one event can do to a pump. -/
inductive Pump.Effect (pump : Pump) : PumpEvent → Pump × Nat → Prop
  | chunk (bytes : Bytes) (hreading : pump.phase = .reading) :
      Effect pump (.chunk bytes) ({ pump with
        received := pump.received ++ bytes, phase := .writing bytes.length bytes }, 0)
  | eof (hreading : pump.phase = .reading) :
      Effect pump .eof ({ pump with phase := .settled (.ok ()) }, 0)
  | readError (err : IoError) (hreading : pump.phase = .reading) :
      Effect pump (.readError err) ({ pump with phase := .settled (.error ⟨.read, err⟩) }, 0)
  | tookAll (chunk : Nat) (rest : Bytes) (hwriting : pump.phase = .writing chunk rest)
      (hrest : rest.length ≠ 0) :
      Effect pump (.accepted rest.length) ({ pump with
        accepted := pump.accepted ++ rest, counter := pump.counter + chunk, phase := .reading },
        chunk)
  | tookSome (chunk n : Nat) (rest : Bytes) (hwriting : pump.phase = .writing chunk rest)
      (hn : n ≠ 0) :
      Effect pump (.accepted n) ({ pump with
        accepted := pump.accepted ++ rest.take n, phase := .writing chunk (rest.drop n) }, 0)
  | writeFailed (event : PumpEvent) (err : IoError) (hfails : event.failsWrite = true) :
      Effect pump event ({ pump with phase := .settled (.error ⟨.write, err⟩) }, 0)

theorem Pump.step_effect {pump : Pump} {event : PumpEvent} {out : Pump × Nat}
    (hstep : pump.step event = some out) : pump.Effect event out := by
  unfold step at hstep
  split at hstep
  next bytes hphase =>
    split at hstep
    next => exact Option.some.inj hstep ▸ .chunk bytes hphase
    next => cases hstep
  next hphase => exact Option.some.inj hstep ▸ .eof hphase
  next err hphase => exact Option.some.inj hstep ▸ .readError err hphase
  next chunk rest n hphase =>
    split at hstep
    next => cases hstep
    next =>
      split at hstep
      next hzero =>
        subst hzero
        exact Option.some.inj hstep ▸ .writeFailed _ writeZero rfl
      next hn =>
        split at hstep
        next hall =>
          subst hall
          exact Option.some.inj hstep ▸ .tookAll chunk rest hphase hn
        next => exact Option.some.inj hstep ▸ .tookSome chunk n rest hphase hn
  next err _ => exact Option.some.inj hstep ▸ .writeFailed _ err rfl
  next => exact Option.some.inj hstep ▸ .writeFailed _ writeStalled rfl
  next => cases hstep

/-- What a pump holds after the events it was fed: the sink has what was read,
short of the unwritten rest of the last chunk. -/
structure Pump.Relays (past : List PumpEvent) (pump : Pump) : Prop where
  reading : pump.phase = .reading → pump.accepted = pump.received
  writing : ∀ chunk rest, pump.phase = .writing chunk rest →
    pump.accepted ++ rest = pump.received
  ended : pump.phase = .settled (.ok ()) → pump.accepted = pump.received ∧ .eof ∈ past
  writes : (∃ event ∈ past, event.failsWrite = true) →
    ∃ err, pump.phase = .settled (.error ⟨.write, err⟩)

theorem Pump.relays_new : Pump.new.Relays [] := by
  constructor
  · intro _
    rfl
  · intro chunk rest hphase
    cases hphase
  · intro hphase
    cases hphase
  · rintro ⟨event, hmem, -⟩
    cases hmem

/-- An event that fails no write leaves none failed, if the pump still ran. -/
theorem Pump.Relays.no_failed_write {past : List PumpEvent} {pump : Pump} {event : PumpEvent}
    (hrelays : pump.Relays past) (hphase : ∀ result, pump.phase ≠ .settled result)
    (hevent : event.failsWrite = false) :
    ¬ ∃ other ∈ past ++ [event], other.failsWrite = true := by
  rintro ⟨other, hmem, hfails⟩
  rcases List.mem_append.mp hmem with hmem | hmem
  · obtain ⟨err, herr⟩ := hrelays.writes ⟨other, hmem, hfails⟩
    exact hphase _ herr
  · rw [List.mem_singleton.mp hmem, hevent] at hfails
    cases hfails

theorem Pump.relays_step {past : List PumpEvent} {pump : Pump} {event : PumpEvent}
    {out : Pump × Nat} (hrelays : pump.Relays past) (heffect : pump.Effect event out) :
    out.1.Relays (past ++ [event]) := by
  cases heffect with
  | chunk bytes hreading =>
      have hsame := hrelays.reading hreading
      refine ⟨by simp, ?_, by simp, fun hfailed => ?_⟩
      · intro chunk rest hphase
        obtain ⟨-, rfl⟩ : bytes.length = chunk ∧ bytes = rest := by simpa using hphase
        rw [hsame]
      · apply absurd hfailed
        apply hrelays.no_failed_write _ rfl
        simp [hreading]
  | eof hreading =>
      have hsame := hrelays.reading hreading
      refine ⟨by simp, by simp, fun _ => ⟨hsame, by simp⟩, fun hfailed => ?_⟩
      apply absurd hfailed
      apply hrelays.no_failed_write _ rfl
      simp [hreading]
  | readError err hreading =>
      refine ⟨by simp, by simp, by simp, fun hfailed => ?_⟩
      apply absurd hfailed
      apply hrelays.no_failed_write _ rfl
      simp [hreading]
  | tookAll chunk rest hwriting hrest =>
      have hsame := hrelays.writing chunk rest hwriting
      refine ⟨fun _ => hsame, by simp, by simp, fun hfailed => ?_⟩
      apply absurd hfailed
      apply hrelays.no_failed_write
      · simp [hwriting]
      · simpa [PumpEvent.failsWrite] using hrest
  | tookSome chunk n rest hwriting hn =>
      have hsame := hrelays.writing chunk rest hwriting
      refine ⟨by simp, ?_, by simp, fun hfailed => ?_⟩
      · intro other unwritten hphase
        obtain ⟨-, rfl⟩ : chunk = other ∧ rest.drop n = unwritten := by simpa using hphase
        rw [List.append_assoc, List.take_append_drop, hsame]
      · apply absurd hfailed
        apply hrelays.no_failed_write
        · simp [hwriting]
        · simpa [PumpEvent.failsWrite] using hn
  | writeFailed event err hfails =>
      exact ⟨by simp, by simp, by simp, fun _ => ⟨err, rfl⟩⟩

end Zicade.Proxy
