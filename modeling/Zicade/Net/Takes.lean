import Zicade.Net.Socket

/-! # What an operation takes off a stream

On any socket at all, an operation takes some bytes off the front and ends with a
value or without one. It waits only for a silent peer whose bytes are all read.
-/

namespace Zicade.Net

open Zicade.Foundation

/-- The operation takes `taken` off the stream and gives `value`, or no value; left
pending, it waits for a silent peer. -/
structure Takes {ε α : Type} (operation : Wire ε α) (socket : Socket) (taken : Bytes)
    (value : Option α) : Prop where
  consumed : Consumed socket (operation socket).2 taken
  gives : ∀ result, (operation socket).1 = .ok result ↔ value = some result
  waits : (operation socket).1 = .error .pending →
    socket.ending = .silent ∧ (operation socket).2.incoming = []

theorem Consumed.incoming_drop {before after : Socket} {bytes : Bytes}
    (h : Consumed before after bytes) :
    after.incoming = before.incoming.drop bytes.length := by
  rw [h.incoming, List.drop_left]

namespace Takes

variable {ε α β : Type} {operation : Wire ε α} {socket : Socket} {taken more : Bytes} {value : α}

theorem pure (socket : Socket) (value : α) :
    Takes (Pure.pure value : Wire ε α) socket [] (some value) where
  consumed := Consumed.refl socket
  gives result := by simp
  waits h := by simp at h

theorem fail (socket : Socket) (err : ε) : Takes (Wire.fail err : Wire ε α) socket [] none where
  consumed := Consumed.refl socket
  gives result := by simp
  waits h := by simp at h

theorem eq_ok (h : Takes operation socket taken (some value)) :
    operation socket = (.ok value, (operation socket).2) :=
  Prod.ext ((h.gives value).mpr rfl) rfl

/-- An operation that gives no value does not go on. -/
theorem bind_none {next : α → Wire ε β} (h : Takes operation socket taken none) :
    Takes (operation >>= next) socket taken none := by
  have herror : ∃ halt, operation socket = (.error halt, (operation socket).2) := by
    cases hresult : operation socket with
    | mk result after =>
        cases result with
        | error halt => exact ⟨halt, rfl⟩
        | ok result => cases (h.gives result).mp (congrArg Prod.fst hresult)
  obtain ⟨halt, hhalt⟩ := herror
  have hbind : (operation >>= next) socket = (.error halt, (operation socket).2) :=
    Wire.bind_of_error next hhalt
  refine ⟨by rw [hbind]; exact h.consumed, fun result => by simp [hbind], fun hpending => ?_⟩
  rw [hbind] at hpending ⊢
  exact h.waits (by rw [hhalt, Except.error.inj hpending])

/-- One after the other, two operations take the bytes of both. -/
theorem bind {next : α → Wire ε β} {result : Option β}
    (hfirst : Takes operation socket taken (some value))
    (hnext : ∀ after, Consumed socket after taken → Takes (next value) after more result) :
    Takes (operation >>= next) socket (taken ++ more) result := by
  have hbind : (operation >>= next) socket = next value (operation socket).2 :=
    Wire.bind_of_ok next hfirst.eq_ok
  have hrest := hnext _ hfirst.consumed
  refine ⟨by rw [hbind]; exact hfirst.consumed.trans hrest.consumed, ?_, ?_⟩
  · rw [hbind]
    exact hrest.gives
  · rw [hbind, ← hfirst.consumed.ending]
    exact hrest.waits

theorem map (f : α → β) {value : Option α} (h : Takes operation socket taken value) :
    Takes (operation >>= fun result => Pure.pure (f result)) socket taken (value.map f) := by
  cases value with
  | none => exact h.bind_none
  | some result =>
      have hbind : Takes (operation >>= fun result => Pure.pure (f result)) socket (taken ++ [])
          (some (f result)) := h.bind fun after _ => Takes.pure after (f result)
      rwa [List.append_nil] at hbind

end Takes

/-- At the end of its stream a socket gives the empty read if the peer closed it. -/
theorem read_takes_nil {socket : Socket} (capacity : Nat) (hnil : socket.incoming = []) :
    Takes (read capacity) socket [] (if socket.ending = .closed then some [] else none) := by
  cases hending : socket.ending with
  | closed =>
      have hread : read capacity socket = (.ok [], socket) := by simp [read, hnil, hending]
      exact ⟨by rw [hread]; exact Consumed.refl socket, fun result => by simp [hread],
        fun h => by simp [hread] at h⟩
  | reset err =>
      have hread : read capacity socket = (.error (.err err), socket) := by
        simp [read, hnil, hending]
      exact ⟨by rw [hread]; exact Consumed.refl socket, fun result => by simp [hread],
        fun h => by simp [hread] at h⟩
  | silent =>
      have hread : read capacity socket = (.error .pending, socket) := by simp [read, hnil, hending]
      exact ⟨by rw [hread]; exact Consumed.refl socket, fun result => by simp [hread],
        fun _ => by simp [hread, hnil, hending]⟩

/-- A read that finds bytes takes one at least, and at most as many as it has room for. -/
theorem read_takes {socket : Socket} {capacity : Nat} (hcapacity : 0 < capacity)
    (hne : socket.incoming ≠ []) :
    ∃ count, 0 < count ∧ count ≤ capacity ∧ count ≤ socket.incoming.length ∧
      Takes (read capacity) socket (socket.incoming.take count)
        (some (socket.incoming.take count)) := by
  obtain ⟨count, after, hcount, hread, hconsumed⟩ := read_of_incoming capacity hne
  have hpos : 0 < socket.incoming.length := List.length_pos_iff.mpr hne
  refine ⟨min (min capacity count) socket.incoming.length, by omega, by omega, by omega, ?_⟩
  have htake : socket.incoming.take (min (min capacity count) socket.incoming.length) =
      socket.incoming.take (min capacity count) := by
    rcases Nat.le_total (min capacity count) socket.incoming.length with hle | hle
    · rw [Nat.min_eq_left hle]
    · rw [Nat.min_eq_right hle, List.take_length, List.take_of_length_le hle]
  rw [htake]
  exact ⟨by rw [hread]; exact hconsumed, fun result => by simp [hread, eq_comm],
    fun h => by simp [hread] at h⟩

/-- A one-byte read takes the next byte. -/
theorem read_one_takes {socket : Socket} {b : UInt8} {rest : Bytes}
    (hincoming : socket.incoming = b :: rest) : Takes (read 1) socket [b] (some [b]) := by
  obtain ⟨after, hread, hconsumed⟩ := read_one hincoming
  exact ⟨by rw [hread]; exact hconsumed, fun result => by simp [hread],
    fun h => by simp [hread] at h⟩

end Zicade.Net
