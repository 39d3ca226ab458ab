import Zicade.Foundation.IoError
import Zicade.Foundation.Text

/-! # Sockets

A socket is what its peer does with it: the bytes the peer sends, how many of
them each read finds, how the stream ends, and what becomes of each write. The
log lists what crossed the socket, so that a statement can say what was sent
before which response byte. A silent peer parks an operation for ever.
-/

namespace Zicade.Net

open Zicade.Foundation

/-- How a peer's stream ends once everything it sent has been read. -/
inductive Ending
  | closed
  | reset (err : IoError)
  | silent
  deriving DecidableEq, Repr

inductive WriteOutcome
  | accepted
  | failed (err : IoError)
  | stalled
  deriving DecidableEq, Repr

/-- Why an operation did not produce a value. -/
inductive Halt (ε : Type)
  | err (error : ε)
  | pending
  deriving DecidableEq, Repr

def Halt.mapErr {ε ζ : Type} (f : ε → ζ) : Halt ε → Halt ζ
  | .err error => .err (f error)
  | .pending => .pending

inductive SocketEvent
  | wrote (bytes : Bytes) (outcome : WriteOutcome)
  | peeked
  | received (bytes : Bytes)
  deriving DecidableEq, Repr

/-- Whether an event saw something the peer sent. -/
def SocketEvent.seesPeer : SocketEvent → Bool
  | .wrote _ _ => false
  | .peeked => true
  | .received _ => true

structure Socket where
  incoming : Bytes
  /-- Each read finds one byte more than the next entry, as far as they go. -/
  bursts : List Nat
  ending : Ending
  /-- What becomes of each write; the ones past the list are accepted. -/
  writes : List WriteOutcome
  log : List SocketEvent
  deriving DecidableEq, Repr

/-- A socket operation: its result, and the socket as it leaves it. -/
def Wire (ε α : Type) := Socket → Except (Halt ε) α × Socket

namespace Wire

variable {ε ζ α β : Type}

def pure (value : α) : Wire ε α := fun socket => (.ok value, socket)

def bind (first : Wire ε α) (next : α → Wire ε β) : Wire ε β := fun socket =>
  match first socket with
  | (.ok value, after) => next value after
  | (.error halt, after) => (.error halt, after)

instance : Monad (Wire ε) where
  pure := Wire.pure
  bind := Wire.bind

def fail (error : ε) : Wire ε α := fun socket => (.error (.err error), socket)

/-- `map_err`. -/
def mapErr (f : ε → ζ) (operation : Wire ε α) : Wire ζ α := fun socket =>
  match operation socket with
  | (.ok value, after) => (.ok value, after)
  | (.error halt, after) => (.error (halt.mapErr f), after)

theorem mapErr_of_ok (f : ε → ζ) {operation : Wire ε α} {socket after : Socket} {value : α}
    (hok : operation socket = (.ok value, after)) :
    mapErr f operation socket = (.ok value, after) := by
  rw [mapErr, hok]

theorem mapErr_of_error (f : ε → ζ) {operation : Wire ε α} {socket after : Socket}
    {halt : Halt ε} (herror : operation socket = (.error halt, after)) :
    mapErr f operation socket = (.error (halt.mapErr f), after) := by
  rw [mapErr, herror]

@[simp] theorem pure_apply (value : α) (socket : Socket) :
    (Pure.pure value : Wire ε α) socket = (.ok value, socket) := rfl

@[simp] theorem fail_apply (error : ε) (socket : Socket) :
    (fail error : Wire ε α) socket = (.error (.err error), socket) := rfl

theorem bind_apply (first : Wire ε α) (next : α → Wire ε β) (socket : Socket) :
    (first >>= next) socket =
      match first socket with
      | (.ok value, after) => next value after
      | (.error halt, after) => (.error halt, after) := rfl

theorem bind_of_ok {first : Wire ε α} (next : α → Wire ε β) {socket after : Socket} {value : α}
    (hfirst : first socket = (.ok value, after)) : (first >>= next) socket = next value after := by
  rw [bind_apply, hfirst]

theorem bind_of_error {first : Wire ε α} (next : α → Wire ε β) {socket after : Socket}
    {halt : Halt ε} (hfirst : first socket = (.error halt, after)) :
    (first >>= next) socket = (.error halt, after) := by
  rw [bind_apply, hfirst]

end Wire

/-! ## Primitive operations -/

/-- `AsyncReadExt::read` into a buffer of `capacity` bytes; nothing is the end
of the stream. -/
def read (capacity : Nat) : Wire IoError Bytes := fun socket =>
  match socket.incoming with
  | [] =>
      match socket.ending with
      | .closed => (.ok [], socket)
      | .reset err => (.error (.err err), socket)
      | .silent => (.error .pending, socket)
  | incoming =>
      let count := min capacity (socket.bursts.headD 0 + 1)
      let bytes := incoming.take count
      (.ok bytes, { socket with
        incoming := incoming.drop count
        bursts := socket.bursts.tail
        log := socket.log ++ [.received bytes] })

/-- `TcpStream::peek` into a one-byte buffer: how many bytes it found. -/
def peek : Wire IoError Nat := fun socket =>
  match socket.incoming with
  | [] =>
      match socket.ending with
      | .closed => (.ok 0, socket)
      | .reset err => (.error (.err err), socket)
      | .silent => (.error .pending, socket)
  | _ :: _ => (.ok 1, { socket with log := socket.log ++ [.peeked] })

/-- The socket once a write has been tried. -/
def Socket.wrote (socket : Socket) (bytes : Bytes) : Socket :=
  { socket with
    writes := socket.writes.tail
    log := socket.log ++ [.wrote bytes (socket.writes.headD .accepted)] }

/-- `write_all` and the flush after it. -/
def writeAll (bytes : Bytes) : Wire IoError Unit := fun socket =>
  match socket.writes.headD .accepted with
  | .accepted => (.ok (), socket.wrote bytes)
  | .failed err => (.error (.err err), socket.wrote bytes)
  | .stalled => (.error .pending, socket.wrote bytes)

/-- Every write to the socket is accepted. -/
def Socket.Accepting (socket : Socket) : Prop := ∀ outcome ∈ socket.writes, outcome = .accepted

theorem writeAll_cases (bytes : Bytes) (socket : Socket) :
    writeAll bytes socket = (.ok (), socket.wrote bytes) ∨
      (¬socket.Accepting ∧ ∃ halt, writeAll bytes socket = (.error halt, socket.wrote bytes)) := by
  unfold writeAll
  cases hwrites : socket.writes with
  | nil => exact .inl rfl
  | cons outcome rest =>
      have hnot : outcome ≠ .accepted → ¬socket.Accepting :=
        fun hne haccepting => hne (haccepting outcome (hwrites ▸ List.mem_cons_self))
      cases outcome with
      | accepted => exact .inl rfl
      | failed err => exact .inr ⟨hnot (by simp), .err err, rfl⟩
      | stalled => exact .inr ⟨hnot (by simp), .pending, rfl⟩

/-! ## What reading does to a socket -/

/-- `after` is `before` once exactly `bytes` have been read from it. -/
structure Consumed (before after : Socket) (bytes : Bytes) : Prop where
  incoming : before.incoming = bytes ++ after.incoming
  ending : after.ending = before.ending
  writes : after.writes = before.writes
  log : ∃ reads : List Bytes, after.log = before.log ++ reads.map .received ∧ reads.flatten = bytes

namespace Consumed

variable {first second third : Socket} {bytes more : Bytes}

theorem refl (socket : Socket) : Consumed socket socket [] :=
  ⟨rfl, rfl, rfl, [], by simp, rfl⟩

theorem trans (hfirst : Consumed first second bytes) (hsecond : Consumed second third more) :
    Consumed first third (bytes ++ more) := by
  obtain ⟨reads, hlog, hreads⟩ := hfirst.log
  obtain ⟨reads', hlog', hreads'⟩ := hsecond.log
  refine ⟨?_, hsecond.ending.trans hfirst.ending, hsecond.writes.trans hfirst.writes,
    reads ++ reads', ?_, ?_⟩
  · rw [hfirst.incoming, hsecond.incoming, List.append_assoc]
  · rw [hlog', hlog, List.map_append, List.append_assoc]
  · rw [List.flatten_append, hreads, hreads']

theorem incoming_length (h : Consumed first second bytes) :
    second.incoming.length + bytes.length = first.incoming.length := by
  rw [h.incoming, List.length_append, Nat.add_comm]

/-- What was read is determined by what is left. -/
theorem incoming_eq {rest : Bytes} (h : Consumed first second bytes)
    (hfirst : first.incoming = bytes ++ rest) : second.incoming = rest :=
  List.append_cancel_left (h.incoming.symm.trans hfirst)

end Consumed

theorem read_of_incoming {socket : Socket} (capacity : Nat) (hne : socket.incoming ≠ []) :
    ∃ count after, 0 < count ∧
      read capacity socket = (.ok (socket.incoming.take (min capacity count)), after) ∧
      Consumed socket after (socket.incoming.take (min capacity count)) := by
  refine ⟨socket.bursts.headD 0 + 1, { socket with
    incoming := socket.incoming.drop (min capacity (socket.bursts.headD 0 + 1))
    bursts := socket.bursts.tail
    log := socket.log ++
      [.received (socket.incoming.take (min capacity (socket.bursts.headD 0 + 1)))] },
    Nat.succ_pos _, ?_, ?_⟩
  · cases hincoming : socket.incoming with
    | nil => exact absurd hincoming hne
    | cons b rest => simp only [read, hincoming]
  · exact ⟨(List.take_append_drop _ _).symm, rfl, rfl,
      [socket.incoming.take (min capacity (socket.bursts.headD 0 + 1))], rfl, by simp⟩

/-- A one-byte read takes the next byte, whatever the peer's bursts are. -/
theorem read_one {socket : Socket} {b : UInt8} {rest : Bytes}
    (hincoming : socket.incoming = b :: rest) :
    ∃ after, read 1 socket = (.ok [b], after) ∧ Consumed socket after [b] := by
  have hne : socket.incoming ≠ [] := by
    rw [hincoming]
    exact List.cons_ne_nil _ _
  obtain ⟨count, after, hcount, hread, hconsumed⟩ := read_of_incoming 1 hne
  have htake : socket.incoming.take (min 1 count) = [b] := by
    rw [hincoming, Nat.min_eq_left hcount]
    rfl
  rw [htake] at hread hconsumed
  exact ⟨after, hread, hconsumed⟩

/-- At the end of its stream a socket gives nothing and stays as it is. -/
theorem read_of_no_incoming {socket : Socket} (capacity : Nat) (hnil : socket.incoming = []) :
    (read capacity socket).2 = socket ∧ ∀ bytes, (read capacity socket).1 = .ok bytes →
      bytes = [] := by
  unfold read
  rw [hnil]
  cases hending : socket.ending with
  | closed => simp
  | reset err => simp
  | silent => simp

/-- Every read takes the bytes it returns off the front, and no others. -/
theorem read_consumes (capacity : Nat) (socket : Socket) :
    ∃ bytes, Consumed socket (read capacity socket).2 bytes ∧ bytes.length ≤ capacity ∧
      ∀ value, (read capacity socket).1 = .ok value → value = bytes := by
  by_cases hnil : socket.incoming = []
  · obtain ⟨hsame, hvalue⟩ := read_of_no_incoming capacity hnil
    exact ⟨[], by rw [hsame]; exact Consumed.refl socket, Nat.zero_le _, hvalue⟩
  · obtain ⟨count, after, -, hread, hconsumed⟩ := read_of_incoming capacity hnil
    refine ⟨_, by rw [hread]; exact hconsumed, ?_, ?_⟩
    · rw [List.length_take]
      omega
    · intro value hvalue
      rw [hread] at hvalue
      exact (Except.ok.inj hvalue).symm

/-- A peek sees a byte of the peer and logs that, or leaves the socket as it is. -/
theorem peek_cases (socket : Socket) :
    (socket.incoming ≠ [] ∧
        peek socket = (.ok 1, { socket with log := socket.log ++ [.peeked] })) ∨
      (socket.incoming = [] ∧ (peek socket).2 = socket) := by
  unfold peek
  cases hincoming : socket.incoming with
  | nil =>
      right
      cases hending : socket.ending with
      | closed => simp
      | reset err => simp
      | silent => simp
  | cons b rest => exact .inl ⟨List.cons_ne_nil _ _, rfl⟩

/-! ## The log only grows -/

/-- The operation keeps what the log already holds. -/
def Logs {ε α : Type} (operation : Wire ε α) : Prop :=
  ∀ socket, socket.log <+: (operation socket).2.log

namespace Logs

variable {ε ζ α β : Type}

theorem pure (value : α) : Logs (Pure.pure value : Wire ε α) := fun _ => List.prefix_rfl

theorem fail (error : ε) : Logs (Wire.fail error : Wire ε α) := fun _ => List.prefix_rfl

theorem bind {first : Wire ε α} {next : α → Wire ε β} (hfirst : Logs first)
    (hnext : ∀ value, Logs (next value)) : Logs (first >>= next) := by
  intro socket
  have hprefix := hfirst socket
  rw [Wire.bind_apply]
  split
  next value after heq =>
    rw [heq] at hprefix
    exact hprefix.trans (hnext value after)
  next halt after heq =>
    rw [heq] at hprefix
    exact hprefix

theorem mapErr (f : ε → ζ) {operation : Wire ε α} (h : Logs operation) :
    Logs (Wire.mapErr f operation) := by
  intro socket
  have hprefix := h socket
  unfold Wire.mapErr
  split
  next heq => rwa [heq] at hprefix
  next heq => rwa [heq] at hprefix

theorem read (capacity : Nat) : Logs (Net.read capacity) := by
  intro socket
  obtain ⟨bytes, hconsumed, -⟩ := read_consumes capacity socket
  obtain ⟨reads, hlog, -⟩ := hconsumed.log
  exact ⟨_, hlog.symm⟩

theorem peek : Logs Net.peek := by
  intro socket
  rcases peek_cases socket with ⟨-, hpeek⟩ | ⟨-, hsame⟩
  · rw [hpeek]
    exact List.prefix_append _ _
  · have hlog : (Net.peek socket).2.log = socket.log := congrArg Socket.log hsame
    exact ⟨[], by rw [hlog, List.append_nil]⟩

theorem writeAll (bytes : Bytes) : Logs (Net.writeAll bytes) := by
  intro socket
  rcases writeAll_cases bytes socket with hwrite | ⟨-, halt, hwrite⟩
  · rw [hwrite]
    exact List.prefix_append _ _
  · rw [hwrite]
    exact List.prefix_append _ _

end Logs

/-! ## Errors of its own -/

/-- The socket never fails with this error. -/
structure Socket.Spares (err : IoError) (socket : Socket) : Prop where
  ending : socket.ending ≠ .reset err
  writes : .failed err ∉ socket.writes

/-- On a socket that never fails with `err`, nothing the operation reports is `bad`. -/
def Avoids {ε α : Type} (err : IoError) (bad : ε) (operation : Wire ε α) : Prop :=
  ∀ socket, socket.Spares err →
    (operation socket).1 ≠ .error (.err bad) ∧ (operation socket).2.Spares err

namespace Avoids

variable {ε ζ α β : Type} {err : IoError} {bad : ε}

theorem pure (value : α) : Avoids err bad (Pure.pure value : Wire ε α) :=
  fun _ hspares => ⟨by simp, hspares⟩

theorem fail {error : ε} (hne : error ≠ bad) : Avoids err bad (Wire.fail error : Wire ε α) :=
  fun _ hspares => ⟨by simpa using hne, hspares⟩

theorem bind {first : Wire ε α} {next : α → Wire ε β} (hfirst : Avoids err bad first)
    (hnext : ∀ value, Avoids err bad (next value)) : Avoids err bad (first >>= next) := by
  intro socket hspares
  obtain ⟨hne, hafter⟩ := hfirst socket hspares
  rw [Wire.bind_apply]
  split
  next value after heq =>
    rw [heq] at hafter
    exact hnext value after hafter
  next halt after heq =>
    rw [heq] at hne hafter
    exact ⟨by simpa using hne, hafter⟩

/-- Under another name an error is bad only if it was before. -/
theorem mapErr {bad' : ζ} {f : ε → ζ} {operation : Wire ε α} (h : Avoids err bad operation)
    (hname : ∀ error, f error = bad' → error = bad) :
    Avoids err bad' (Wire.mapErr f operation) := by
  intro socket hspares
  obtain ⟨hne, hafter⟩ := h socket hspares
  unfold Wire.mapErr
  split
  next heq =>
    rw [heq] at hafter
    exact ⟨by simp, hafter⟩
  next halt after heq =>
    rw [heq] at hne hafter
    refine ⟨fun hbad => ?_, hafter⟩
    cases halt with
    | err error =>
        have hname' : f error = bad' := by simpa [Halt.mapErr] using hbad
        exact hne (by rw [hname error hname'])
    | pending => simp [Halt.mapErr] at hbad

theorem read (capacity : Nat) : Avoids err err (Net.read capacity) := by
  intro socket hspares
  obtain ⟨bytes, hconsumed, -, -⟩ := read_consumes capacity socket
  refine ⟨?_, hconsumed.ending ▸ hspares.ending, hconsumed.writes ▸ hspares.writes⟩
  unfold Net.read
  split
  next =>
    split
    next => simp
    next other hending =>
      intro hbad
      exact hspares.ending (by rw [hending, Halt.err.inj (Except.error.inj hbad)])
    next => simp
  next => simp

theorem peek : Avoids err err Net.peek := by
  intro socket hspares
  rcases peek_cases socket with ⟨-, hpeek⟩ | ⟨hnil, hsame⟩
  · rw [hpeek]
    exact ⟨by simp, hspares.ending, hspares.writes⟩
  · refine ⟨?_, by rwa [hsame]⟩
    unfold Net.peek
    rw [hnil]
    dsimp only
    split
    next => simp
    next other hending =>
      intro hbad
      exact hspares.ending (by rw [hending, Halt.err.inj (Except.error.inj hbad)])
    next => simp

theorem writeAll (bytes : Bytes) : Avoids err err (Net.writeAll bytes) := by
  intro socket hspares
  have hwrote : (socket.wrote bytes).Spares err :=
    ⟨hspares.ending, fun hmem => hspares.writes (List.mem_of_mem_tail hmem)⟩
  unfold Net.writeAll
  split
  next => exact ⟨by simp, hwrote⟩
  next other hfirst =>
    refine ⟨fun hbad => hspares.writes ?_, hwrote⟩
    rw [← Halt.err.inj (Except.error.inj hbad), ← hfirst]
    cases hwrites : socket.writes with
    | nil => simp [hwrites] at hfirst
    | cons outcome rest => exact List.mem_cons_self
  next => exact ⟨by simp, hwrote⟩

end Avoids

/-! ## Reading within a limit -/

/-- Within its limit the operation takes exactly `bytes` and returns `value`;
beyond the limit it fails. -/
def ReadsWithin {α : Type} (operation : Wire IoError α) (socket : Socket) (limit : Prop)
    (bytes : Bytes) (value : α) : Prop :=
  ∃ after, (limit ∧ Consumed socket after bytes ∧ operation socket = (.ok value, after)) ∨
    (¬limit ∧ ∃ err, operation socket = (.error (.err err), after))

namespace ReadsWithin

variable {α β : Type} {operation : Wire IoError α} {socket : Socket} {limit limit' : Prop}
  {bytes more : Bytes} {value : α} {result : β}

theorem congr (h : ReadsWithin operation socket limit bytes value) (hlimit : limit ↔ limit') :
    ReadsWithin operation socket limit' bytes value := by
  rwa [ReadsWithin, ← hlimit]

theorem pure (socket : Socket) (value : α) :
    ReadsWithin (Pure.pure value) socket True [] value :=
  ⟨socket, .inl ⟨trivial, Consumed.refl socket, rfl⟩⟩

theorem fail (socket : Socket) (err : IoError) (bytes : Bytes) (value : α) :
    ReadsWithin (Wire.fail err) socket False bytes value :=
  ⟨socket, .inr ⟨id, err, rfl⟩⟩

/-- One after the other, two operations read within both limits. -/
theorem bind (next : α → Wire IoError β) (hfirst : ReadsWithin operation socket limit bytes value)
    (hnext : ∀ after, Consumed socket after bytes →
      ReadsWithin (next value) after limit' more result) :
    ReadsWithin (operation >>= next) socket (limit ∧ limit') (bytes ++ more) result := by
  obtain ⟨middle, ⟨hlimit, hconsumed, hok⟩ | ⟨hlimit, err, herror⟩⟩ := hfirst
  · obtain ⟨after, ⟨hlimit', hmore, hok'⟩ | ⟨hlimit', err, herror⟩⟩ := hnext middle hconsumed
    · refine ⟨after, .inl ⟨⟨hlimit, hlimit'⟩, hconsumed.trans hmore, ?_⟩⟩
      rw [Wire.bind_of_ok _ hok, hok']
    · refine ⟨after, .inr ⟨fun h => hlimit' h.2, err, ?_⟩⟩
      rw [Wire.bind_of_ok _ hok, herror]
  · exact ⟨middle, .inr ⟨fun h => hlimit h.1, err, Wire.bind_of_error _ herror⟩⟩

/-- An operation that succeeded was within its limit and took its bytes. -/
theorem of_ok (h : ReadsWithin operation socket limit bytes value) {result : α} {after : Socket}
    (hok : operation socket = (.ok result, after)) :
    limit ∧ result = value ∧ Consumed socket after bytes := by
  obtain ⟨after', ⟨hlimit, hconsumed, hok'⟩ | ⟨-, err, herror⟩⟩ := h
  · rw [hok'] at hok
    obtain ⟨hvalue, rfl⟩ := Prod.mk.inj hok
    exact ⟨hlimit, (Except.ok.inj hvalue).symm, hconsumed⟩
  · rw [herror] at hok
    cases (Prod.mk.inj hok).1

theorem exists_ok (h : ReadsWithin operation socket limit bytes value) (hlimit : limit) :
    ∃ after, operation socket = (.ok value, after) ∧ Consumed socket after bytes := by
  obtain ⟨after, ⟨-, hconsumed, hok⟩ | ⟨hnot, -⟩⟩ := h
  · exact ⟨after, hok, hconsumed⟩
  · exact absurd hlimit hnot

end ReadsWithin

end Zicade.Net
