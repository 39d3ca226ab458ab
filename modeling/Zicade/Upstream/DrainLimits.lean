import Zicade.Net.Takes
import Zicade.Upstream.Wire

/-! # The limits on draining

What a drain takes off any stream is a function of the bytes on it. The declared
sizes of what is drained are bounded as the source says; the lines around the chunks
are not counted, and a length that does not fit a machine word declares no body.
-/

namespace Zicade.Upstream

open Zicade.Foundation Zicade.Net

/-! ## The framing of a stream -/

/-- The bytes a line takes, up to its line feed and `limit` bytes at most, and whether
they are a line. What a closed stream ends with is one. -/
def nextLine (closed : Bool) : Nat → Bytes → Bytes × Bool
  | 0, _ => ([], false)
  | _ + 1, [] => ([], closed)
  | limit + 1, b :: rest =>
      if b = lf then ([b], true)
      else (b :: (nextLine closed limit rest).1, (nextLine closed limit rest).2)

/-- The next line of a stream that may be as long as a line may be. -/
def lineOf (closed : Bool) (stream : Bytes) : Bytes × Bool :=
  nextLine closed (maxHeadBytes + 1) stream

/-- The chunked framing of a stream as far as it is followed: the total of the sizes, all of
its bytes, and whether it reached its end. -/
structure ChunkSpan where
  total : Nat
  bytes : Bytes
  complete : Bool
  deriving DecidableEq, Repr

/-- The framing up to the line after the last chunk, a line that is not one or has no size,
the size that takes the total past the limit, or the end of the stream. -/
def chunkSpan (closed : Bool) (total : Nat) (stream : Bytes) : ChunkSpan :=
  let line := lineOf closed stream
  let rest := stream.drop line.1.length
  if line.2 = false then ⟨total, line.1, false⟩
  else match chunkSize (fromUtf8Lossy line.1) with
    | none => ⟨total, line.1, false⟩
    | some 0 => ⟨total, line.1 ++ (lineOf closed rest).1, (lineOf closed rest).2⟩
    | some (size + 1) =>
        let close := lineOf closed (rest.drop (size + 1))
        if maxDrainBytes < total + (size + 1) then ⟨total + (size + 1), line.1, false⟩
        else if rest.length < size + 1 then ⟨total + (size + 1), line.1 ++ rest, false⟩
        else if close.2 = false then
          ⟨total + (size + 1), line.1 ++ (rest.take (size + 1) ++ close.1), false⟩
        else
          let more := chunkSpan closed (total + (size + 1))
            ((rest.drop (size + 1)).drop close.1.length)
          ⟨more.total, line.1 ++ (rest.take (size + 1) ++ (close.1 ++ more.bytes)), more.complete⟩
termination_by stream.length
decreasing_by
  have hrest : rest.length = stream.length - line.1.length := List.length_drop
  simp only [List.length_drop]
  omega

theorem nextLine_length_le (closed : Bool) (limit : Nat) (bytes : Bytes) :
    (nextLine closed limit bytes).1.length ≤ limit := by
  induction bytes generalizing limit with
  | nil => cases limit <;> exact Nat.zero_le _
  | cons b rest ih =>
      cases limit with
      | zero => exact Nat.zero_le _
      | succ limit =>
          rw [nextLine]
          split
          · exact Nat.succ_le_succ (Nat.zero_le _)
          · exact Nat.succ_le_succ (ih limit)

theorem readUntil_takes {rounds : Nat} {buf : Bytes}
    (hrounds : buf.length + rounds = maxHeadBytes + 1) (socket : Socket) :
    Takes (readUntil [lf] pure lineTooLong rounds buf) socket
      (nextLine (socket.ending = .closed) rounds socket.incoming).1
      (if (nextLine (socket.ending = .closed) rounds socket.incoming).2 then
        some (buf ++ (nextLine (socket.ending = .closed) rounds socket.incoming).1) else none) := by
  induction rounds generalizing buf socket with
  | zero => exact Takes.fail socket lineTooLong
  | succ rounds ih =>
      rw [readUntil]
      cases hincoming : socket.incoming with
      | nil =>
          have hread := read_takes_nil 1 hincoming
          by_cases hclosed : socket.ending = .closed
          · rw [if_pos hclosed] at hread
            have hline : nextLine (socket.ending = .closed) (rounds + 1) [] = ([], true) := by
              rw [nextLine, decide_eq_true hclosed]
            rw [hline, List.append_nil]
            exact hread.bind fun after _ => Takes.pure after buf
          · rw [if_neg hclosed] at hread
            have hline : nextLine (socket.ending = .closed) (rounds + 1) [] = ([], false) := by
              rw [nextLine, decide_eq_false hclosed]
            rw [hline]
            exact hread.bind_none
      | cons b rest =>
          have hread := read_one_takes hincoming
          by_cases hlf : b = lf
          · have hsuffix : [lf].isSuffixOf (buf ++ [b]) = true :=
              List.isSuffixOf_iff_suffix.mpr (hlf ▸ List.suffix_append _ _)
            have hline : nextLine (socket.ending = .closed) (rounds + 1) (b :: rest) =
                ([b], true) := by
              rw [nextLine, if_pos hlf]
            rw [hline]
            refine hread.bind fun after _ => ?_
            simp only [if_pos hsuffix]
            exact Takes.pure after (buf ++ [b])
          · have hsuffix : ¬[lf].isSuffixOf (buf ++ [b]) = true := by
              rw [List.isSuffixOf_iff_suffix]
              intro hsuffix
              obtain ⟨front, hfront⟩ := hsuffix
              exact hlf (List.singleton_inj.mp (List.append_inj' hfront rfl).2).symm
            have hlength : (buf ++ [b]).length = buf.length + 1 := by simp
            rw [nextLine, if_neg hlf]
            refine hread.bind fun after hconsumed => ?_
            simp only [if_neg hsuffix]
            by_cases hlimit : maxHeadBytes < (buf ++ [b]).length
            · obtain rfl : rounds = 0 := by omega
              rw [if_pos hlimit]
              exact Takes.fail after lineTooLong
            · rw [if_neg hlimit]
              have hleft : (buf ++ [b]).length + rounds = maxHeadBytes + 1 := by omega
              have hrest := ih hleft after
              rw [hconsumed.ending, hconsumed.incoming_eq hincoming, List.append_assoc] at hrest
              exact hrest

theorem readLine_takes (socket : Socket) :
    Takes readLine socket (lineOf (socket.ending = .closed) socket.incoming).1
      (if (lineOf (socket.ending = .closed) socket.incoming).2 then
        some (fromUtf8Lossy (lineOf (socket.ending = .closed) socket.incoming).1) else none) := by
  have hline : Takes (readUntil [lf] pure lineTooLong (maxHeadBytes + 1) []) socket
      (lineOf (socket.ending = .closed) socket.incoming).1
      (if (lineOf (socket.ending = .closed) socket.incoming).2 then
        some (lineOf (socket.ending = .closed) socket.incoming).1 else none) :=
    readUntil_takes (Nat.zero_add _) socket
  have hread := hline.map fromUtf8Lossy
  rwa [apply_ite (Option.map fromUtf8Lossy)] at hread

theorem discardLoop_takes {rounds left : Nat} (hrounds : left ≤ rounds) (socket : Socket) :
    Takes (discardLoop rounds left) socket (socket.incoming.take left)
      (if left ≤ socket.incoming.length then some () else none) := by
  induction rounds generalizing left socket with
  | zero =>
      obtain rfl : left = 0 := Nat.le_zero.mp hrounds
      exact Takes.pure socket ()
  | succ rounds ih =>
      cases left with
      | zero => exact Takes.pure socket ()
      | succ left =>
          rw [discardLoop]
          by_cases hnil : socket.incoming = []
          · have hread := read_takes_nil (min (left + 1) 8192) hnil
            simp only [hnil, List.take_nil, List.length_nil]
            rw [if_neg (Nat.not_succ_le_zero left)]
            by_cases hclosed : socket.ending = .closed
            · rw [if_pos hclosed] at hread
              exact hread.bind fun after _ => Takes.fail after closedInBody
            · rw [if_neg hclosed] at hread
              exact hread.bind_none
          · obtain ⟨count, hpos, hcapacity, hcount, hread⟩ :=
              read_takes (show 0 < min (left + 1) 8192 by omega) hnil
            have hsplit : socket.incoming.take (left + 1) = socket.incoming.take count ++
                (socket.incoming.drop count).take (left + 1 - count) := by
              rw [← List.take_add]
              congr 1
              omega
            rw [hsplit]
            refine hread.bind fun after hconsumed => ?_
            have hincoming : after.incoming = socket.incoming.drop count :=
              hconsumed.incoming_eq (List.take_append_drop _ _).symm
            have hlength : (socket.incoming.take count).length = count :=
              List.length_take_of_le hcount
            cases htaken : socket.incoming.take count with
            | nil => simp [htaken] at hlength; omega
            | cons b more =>
                dsimp only
                rw [← htaken, hlength]
                have hrest := ih (show left + 1 - count ≤ rounds by omega) after
                rw [hincoming, List.length_drop] at hrest
                have hfits : left + 1 - count ≤ socket.incoming.length - count ↔
                    left + 1 ≤ socket.incoming.length := by omega
                simpa only [hfits] using hrest

/-- Within its limit a discard takes what there is up to its length. -/
theorem discard_takes {len : Nat} (hlen : len ≤ maxDrainBytes) (socket : Socket) :
    Takes (discard len) socket (socket.incoming.take len)
      (if len ≤ socket.incoming.length then some () else none) := by
  rw [discard, if_neg (Nat.not_lt.mpr hlen)]
  exact discardLoop_takes le_rfl socket

/-- What the loop takes of a stream from a total on. -/
def LoopTakes (rounds total : Nat) : Prop :=
  ∀ socket, Takes (drainChunkedLoop rounds total) socket
    (chunkSpan (socket.ending = .closed) total socket.incoming).bytes
    (if (chunkSpan (socket.ending = .closed) total socket.incoming).complete then some () else none)

/-- The data of a chunk that is there whole is taken, and the line after it; the loop goes on
behind a line that is whole. -/
theorem chunkData_takes {size rounds total : Nat} (hsize : size ≤ maxDrainBytes)
    (hloop : LoopTakes rounds total) {socket : Socket} (hlong : size ≤ socket.incoming.length)
    {close : Bytes × Bool} {more : ChunkSpan}
    (hclose : lineOf (socket.ending = .closed) (socket.incoming.drop size) = close)
    (hmore : chunkSpan (socket.ending = .closed) total
      ((socket.incoming.drop size).drop close.1.length) = more) :
    Takes (do discard size
              let _ ← readLine
              drainChunkedLoop rounds total) socket
      (socket.incoming.take size ++ if close.2 then close.1 ++ more.bytes else close.1)
      (if close.2 then if more.complete then some () else none else none) := by
  have hdata := discard_takes hsize socket
  rw [if_pos hlong] at hdata
  refine hdata.bind fun drained hdrained => ?_
  have hincoming : drained.incoming = socket.incoming.drop size :=
    hdrained.incoming_eq (List.take_append_drop size socket.incoming).symm
  have hclosing := readLine_takes drained
  rw [hincoming, hdrained.ending, hclose] at hclosing
  cases hwhole : close.2 with
  | false =>
      rw [hwhole, if_neg Bool.false_ne_true] at hclosing
      simp only [Bool.false_eq_true, if_false]
      exact hclosing.bind_none
  | true =>
      rw [hwhole, if_pos rfl] at hclosing
      simp only [if_true]
      refine hclosing.bind fun onward honward => ?_
      have honwards := hloop onward
      rwa [honward.incoming_drop, hincoming, honward.ending, hdrained.ending, hmore] at honwards

/-- The chunk loop takes the framing and ends where it does. -/
theorem drainChunkedLoop_takes {rounds total : Nat} (htotal : total ≤ maxDrainBytes)
    (hrounds : maxDrainBytes + 1 ≤ rounds + total) : LoopTakes rounds total := by
  have husize : maxDrainBytes < usizeValues - 1 := by decide
  induction rounds generalizing total with
  | zero => omega
  | succ rounds ih =>
      intro socket
      rw [drainChunkedLoop, chunkSpan]
      have hread := readLine_takes socket
      generalize lineOf (socket.ending = .closed) socket.incoming = line at hread ⊢
      generalize hrest : socket.incoming.drop line.1.length = rest
      have hfront : ∀ after, Consumed socket after line.1 →
          after.incoming = rest ∧ after.ending = socket.ending := by
        intro after hconsumed
        exact ⟨hrest ▸ hconsumed.incoming_drop, hconsumed.ending⟩
      cases hwhole : line.2 with
      | false =>
          rw [hwhole, if_neg (by simp)] at hread
          simp only [if_true]
          exact hread.bind_none
      | true =>
          rw [hwhole, if_pos rfl] at hread
          simp only [Bool.true_eq_false, if_false]
          cases hsize : chunkSize (fromUtf8Lossy line.1) with
          | none =>
              dsimp only
              rw [← List.append_nil line.1]
              refine hread.bind fun after _ => ?_
              rw [hsize]
              exact Takes.fail after invalidChunkSize
          | some size =>
              cases size with
              | zero =>
                  refine hread.bind fun after hconsumed => ?_
                  simp only [hsize]
                  obtain ⟨hincoming, hending⟩ := hfront after hconsumed
                  have hlast := (readLine_takes after).map fun _ => ()
                  rw [hincoming, hending] at hlast
                  rwa [apply_ite (Option.map fun _ => ())] at hlast
              | succ size =>
                  dsimp only
                  by_cases hlarge : maxDrainBytes < total + (size + 1)
                  · have hover : maxDrainBytes < min (total + (size + 1)) (usizeValues - 1) := by
                      omega
                    simp only [if_pos hlarge]
                    rw [← List.append_nil line.1]
                    refine hread.bind fun after _ => ?_
                    simp only [hsize, if_pos hover]
                    exact Takes.fail after tooLarge
                  have hsaturated : min (total + (size + 1)) (usizeValues - 1) =
                      total + (size + 1) := by omega
                  have hfits : size + 1 ≤ maxDrainBytes := by omega
                  simp only [if_neg hlarge]
                  by_cases hshort : rest.length < size + 1
                  · simp only [if_pos hshort]
                    refine hread.bind fun after hconsumed => ?_
                    simp only [hsize, hsaturated, if_neg hlarge]
                    have hdata := discard_takes hfits after
                    rw [(hfront after hconsumed).1, if_neg (Nat.not_le.mpr hshort),
                      List.take_of_length_le (Nat.le_of_lt hshort)] at hdata
                    exact hdata.bind_none
                  simp only [if_neg hshort]
                  have hloop : LoopTakes rounds (total + (size + 1)) := ih (by omega) (by omega)
                  generalize hclose :
                    lineOf (socket.ending = .closed) (rest.drop (size + 1)) = close
                  generalize hmore : chunkSpan (socket.ending = .closed) (total + (size + 1))
                    ((rest.drop (size + 1)).drop close.1.length) = more
                  have hchunk (after : Socket) (hconsumed : Consumed socket after line.1) := by
                    obtain ⟨hincoming, hending⟩ := hfront after hconsumed
                    rw [← hincoming, ← hending] at hclose hmore
                    have htaken := chunkData_takes hfits hloop
                      (by rw [hincoming]; exact Nat.le_of_not_lt hshort) hclose hmore
                    rw [hincoming] at htaken
                    exact htaken
                  cases hclosed : close.2 with
                  | false =>
                      simp only [if_true]
                      refine hread.bind fun after hconsumed => ?_
                      simp only [hsize, hsaturated, if_neg hlarge]
                      have htaken := hchunk after hconsumed
                      rwa [hclosed] at htaken
                  | true =>
                      simp only [Bool.true_eq_false, if_false]
                      refine hread.bind fun after hconsumed => ?_
                      simp only [hsize, hsaturated, if_neg hlarge]
                      have htaken := hchunk after hconsumed
                      rwa [hclosed] at htaken

/-! ## What a drain takes -/

/-- The chunked framing of what a socket has to give. -/
def socketSpan (socket : Socket) : ChunkSpan :=
  chunkSpan (socket.ending = .closed) 0 socket.incoming

/-- The bytes a drain takes, and whether it succeeds. -/
def drainSpan (headers : Headers) (socket : Socket) : Bytes × Bool :=
  match contentLength headers with
  | some len =>
      if maxDrainBytes < len then ([], false)
      else (socket.incoming.take len, len ≤ socket.incoming.length)
  | none =>
      if isChunked headers then ((socketSpan socket).bytes, (socketSpan socket).complete)
      else ([], true)

theorem drainBody_takes (headers : Headers) (socket : Socket) :
    Takes (drainBody headers) socket (drainSpan headers socket).1
      (if (drainSpan headers socket).2 then some () else none) := by
  rw [drainBody, drainSpan]
  cases contentLength headers with
  | none =>
      by_cases hchunked : isChunked headers
      · simp only [hchunked, if_true]
        exact drainChunkedLoop_takes (Nat.zero_le _) le_rfl socket
      · simp only [hchunked]
        exact Takes.pure socket ()
  | some len =>
      by_cases hlarge : maxDrainBytes < len
      · simp only [if_pos hlarge, discard]
        exact Takes.fail socket tooLarge
      · simp only [if_neg hlarge, decide_eq_true_eq]
        exact discard_takes (Nat.le_of_not_lt hlarge) socket

theorem drainBody_ok_iff (headers : Headers) (socket : Socket) :
    (drainBody headers socket).1 = .ok () ↔ (drainSpan headers socket).2 = true := by
  rw [(drainBody_takes headers socket).gives ()]
  cases (drainSpan headers socket).2 <;> simp

/-! ## The bounds -/

theorem lineOf_length_le (closed : Bool) (stream : Bytes) :
    (lineOf closed stream).1.length ≤ maxHeadBytes + 1 :=
  nextLine_length_le closed (maxHeadBytes + 1) stream

/-- Each chunk of the framing has a byte at least and two lines. -/
theorem chunkSpan_length_le (closed : Bool) (total : Nat) (stream : Bytes) :
    (chunkSpan closed total stream).bytes.length ≤
      (maxDrainBytes - total) + (maxDrainBytes - total + 1) * (2 * (maxHeadBytes + 1)) := by
  simp only [maxDrainBytes, maxHeadBytes]
  fun_induction chunkSpan closed total stream with
  | case1 total stream line _ =>
      have hline : line.1.length ≤ 65537 := lineOf_length_le closed stream
      dsimp only
      omega
  | case2 total stream line _ _ =>
      have hline : line.1.length ≤ 65537 := lineOf_length_le closed stream
      dsimp only
      omega
  | case3 total stream line rest _ _ =>
      have hline : line.1.length ≤ 65537 := lineOf_length_le closed stream
      have hlast : (lineOf closed rest).1.length ≤ 65537 := lineOf_length_le closed rest
      rw [List.length_append]
      omega
  | case4 total stream line _ _ _ =>
      have hline : line.1.length ≤ 65537 := lineOf_length_le closed stream
      dsimp only
      omega
  | case5 total stream line rest _ size _ hlarge hshort =>
      have hline : line.1.length ≤ 65537 := lineOf_length_le closed stream
      simp only [maxDrainBytes] at hlarge
      rw [List.length_append]
      omega
  | case6 total stream line rest _ size _ close hlarge _ _ =>
      have hline : line.1.length ≤ 65537 := lineOf_length_le closed stream
      have hclose : close.1.length ≤ 65537 := lineOf_length_le closed _
      have hdata : (rest.take (size + 1)).length ≤ size + 1 := List.length_take_le _ _
      simp only [maxDrainBytes] at hlarge
      rw [List.length_append, List.length_append]
      omega
  | case7 total stream line rest _ size _ close hlarge _ _ more ih =>
      have hline : line.1.length ≤ 65537 := lineOf_length_le closed stream
      have hclose : close.1.length ≤ 65537 := lineOf_length_le closed _
      have hdata : (rest.take (size + 1)).length ≤ size + 1 := List.length_take_le _ _
      have hmore : more.bytes.length ≤ _ := ih
      simp only [maxDrainBytes] at hlarge
      simp only [List.length_append]
      omega

/-- A framing that is followed to its end keeps its sizes within the limit. -/
theorem total_le_of_complete {closed : Bool} {total : Nat} {stream : Bytes}
    (htotal : total ≤ maxDrainBytes) (hcomplete : (chunkSpan closed total stream).complete = true) :
    (chunkSpan closed total stream).total ≤ maxDrainBytes := by
  fun_induction chunkSpan closed total stream with
  | case1 => cases hcomplete
  | case2 => cases hcomplete
  | case3 => exact htotal
  | case4 => cases hcomplete
  | case5 => cases hcomplete
  | case6 => cases hcomplete
  | case7 total stream line rest _ size _ close hlarge _ _ more ih =>
      exact ih (Nat.le_of_not_lt hlarge) hcomplete

/-- More than any drain reads. -/
def drainReads : Nat := maxDrainBytes + (maxDrainBytes + 1) * (2 * (maxHeadBytes + 1))

theorem drainSpan_length_le (headers : Headers) (socket : Socket) :
    (drainSpan headers socket).1.length ≤ drainReads := by
  rw [drainSpan, drainReads]
  cases contentLength headers with
  | none =>
      by_cases hchunked : isChunked headers
      · simp only [hchunked, if_true]
        exact chunkSpan_length_le _ 0 socket.incoming
      · simp [hchunked]
  | some len =>
      by_cases hlarge : maxDrainBytes < len
      · simp [hlarge]
      · simp only [if_neg hlarge]
        have htake := List.length_take_le len socket.incoming
        omega

/-! ## When the limits hold -/

/-- The length that a `Content-Length` of decimal digits declares, however many they are. -/
def declaredLength (headers : Headers) : Option Nat :=
  (header headers "content-length".toList).bind fun value =>
    if value.isEmpty then none else digitsValue 10 value

/-- A declared length is read as long as it fits a machine word. -/
theorem contentLength_of_declared {headers : Headers} {len : Nat}
    (hdeclared : declaredLength headers = some len) :
    contentLength headers = if len < usizeValues then some len else none := by
  obtain ⟨value, hvalue, hdigits⟩ := Option.bind_eq_some_iff.mp hdeclared
  have hne : value ≠ [] := by
    rintro rfl
    cases hdigits
  rw [if_neg (by simpa using hne)] at hdigits
  rw [contentLength, hvalue, Option.bind_some, fromStrRadix_of_digitsValue _ hne hdigits]

/-- The limits as documented: the drain ends on every stream, and on an endless one within a
fixed number of bytes; it fails on a body whose declared length or chunk sizes exceed the
limit; and it reads no more than that. -/
structure DrainsWithin (headers : Headers) (socket : Socket) : Prop where
  ends : (drainBody headers socket).1 = .error .pending →
    socket.ending = .silent ∧ (drainBody headers socket).2.incoming = []
  endless : ∀ more, drainReads < (socket.incoming ++ more).length →
    (drainBody headers { socket with incoming := socket.incoming ++ more }).1 ≠ .error .pending
  declared : ∀ len, declaredLength headers = some len → maxDrainBytes < len →
    (drainBody headers socket).1 ≠ .ok ()
  chunks : contentLength headers = none → isChunked headers →
    maxDrainBytes < (socketSpan socket).total → (drainBody headers socket).1 ≠ .ok ()
  reads : ∀ bytes, Consumed socket (drainBody headers socket).2 bytes →
    bytes.length ≤ maxDrainBytes

/-- The declared length fits a machine word, unless the body is chunked and its framing does
not reach its end; and a chunked framing that is followed fits the limit with its lines. -/
structure FitsLimits (headers : Headers) (socket : Socket) : Prop where
  declared : ∀ len, declaredLength headers = some len → len < usizeValues ∨
    (isChunked headers ∧ (socketSpan socket).complete = false)
  framing : contentLength headers = none → isChunked headers →
    (socketSpan socket).bytes.length ≤ maxDrainBytes

theorem not_pending_of_endless (headers : Headers) {socket : Socket}
    (hlong : drainReads < socket.incoming.length) :
    (drainBody headers socket).1 ≠ .error .pending := by
  intro hpending
  have htakes := drainBody_takes headers socket
  have hlength := htakes.consumed.incoming_length
  rw [(htakes.waits hpending).2] at hlength
  have hbound := drainSpan_length_le headers socket
  simp only [List.length_nil] at hlength
  omega

/-- A drain keeps the limits exactly where the declared length fits a machine word, or is
hidden by a chunked framing that fails, and the chunked framing fits with its lines. -/
theorem drainsWithin_iff (headers : Headers) (socket : Socket) :
    DrainsWithin headers socket ↔ FitsLimits headers socket := by
  have htakes := drainBody_takes headers socket
  have hok := drainBody_ok_iff headers socket
  constructor
  · intro hwithin
    refine ⟨fun len hdeclared => ?_, fun hlength hchunked => ?_⟩
    · by_contra hnot
      obtain ⟨hword, hhidden⟩ := not_or.mp hnot
      have hmax : maxDrainBytes < usizeValues := by decide
      refine hwithin.declared len hdeclared (by omega) (hok.mpr ?_)
      have hlength := contentLength_of_declared hdeclared
      rw [if_neg hword] at hlength
      rw [drainSpan, hlength]
      by_cases hchunked : isChunked headers
      · simpa [hchunked] using hhidden
      · simp [hchunked]
    · have hspan : drainSpan headers socket =
          ((socketSpan socket).bytes, (socketSpan socket).complete) := by
        rw [drainSpan, hlength]
        simp [hchunked]
      rw [hspan] at htakes
      exact hwithin.reads _ htakes.consumed
  · intro hfits
    refine ⟨htakes.waits, fun more hlong => not_pending_of_endless headers hlong, ?_, ?_, ?_⟩
    · intro len hdeclared hlarge
      rw [Ne, hok, drainSpan, contentLength_of_declared hdeclared]
      by_cases hword : len < usizeValues
      · simp [hword, hlarge]
      · obtain ⟨hchunked, hcut⟩ := (hfits.declared len hdeclared).resolve_left hword
        simp [hword, hchunked, hcut]
    · intro hlength hchunked hlarge
      have hspan : (drainSpan headers socket).2 = (socketSpan socket).complete := by
        rw [drainSpan, hlength]
        simp [hchunked]
      rw [Ne, hok, hspan]
      intro hcomplete
      exact absurd hlarge (Nat.not_lt.mpr (total_le_of_complete (Nat.zero_le _) hcomplete))
    · intro bytes hconsumed
      have hbytes : bytes = (drainSpan headers socket).1 :=
        List.append_cancel_right (hconsumed.incoming.symm.trans htakes.consumed.incoming)
      rw [hbytes, drainSpan]
      cases hlength : contentLength headers with
      | none =>
          by_cases hchunked : isChunked headers
          · simpa [hchunked] using hfits.framing hlength hchunked
          · simp [hchunked]
      | some len =>
          by_cases hlarge : maxDrainBytes < len
          · simp [hlarge]
          · simp only [if_neg hlarge]
            exact (List.length_take_le len _).trans (Nat.le_of_not_lt hlarge)

/-! ## Two bodies beyond the limits -/

/-- A length of one more than a machine word holds, and no body. -/
def overlongHeaders : Headers := [("content-length".toList, "18446744073709551616".toList)]

def quietSocket : Socket := ⟨[], [], .silent, [], []⟩

def chunkedHeaders : Headers := [("transfer-encoding".toList, "chunked".toList)]

/-- So many chunks of one byte each, and the last chunk. -/
def smallChunks : Nat → Bytes
  | 0 => ascii "0\r\n\r\n".toList
  | count + 1 => ascii "1\r\nx\r\n".toList ++ smallChunks count

theorem chunkSpan_smallChunks (closed : Bool) {total count : Nat}
    (hcount : total + count ≤ maxDrainBytes) :
    chunkSpan closed total (smallChunks count) = ⟨total + count, smallChunks count, true⟩ := by
  induction count generalizing total with
  | zero =>
      have hline : lineOf closed (smallChunks 0) = (ascii "0\r\n".toList, true) := rfl
      have hlast : lineOf closed (ascii "\r\n".toList) = (ascii "\r\n".toList, true) := rfl
      have hrest : (smallChunks 0).drop (ascii "0\r\n".toList).length = ascii "\r\n".toList := rfl
      have hsize : chunkSize (fromUtf8Lossy (ascii "0\r\n".toList)) = some 0 := by decide +kernel
      rw [chunkSpan]
      simp only [hline, hsize, hrest, hlast]
      rfl
  | succ count ih =>
      have hline : lineOf closed (smallChunks (count + 1)) = (ascii "1\r\n".toList, true) := rfl
      have hsize : chunkSize (fromUtf8Lossy (ascii "1\r\n".toList)) = some 1 := by decide +kernel
      have hrest : (smallChunks (count + 1)).drop (ascii "1\r\n".toList).length =
          ascii "x\r\n".toList ++ smallChunks count := rfl
      have hclose : lineOf closed ((ascii "x\r\n".toList ++ smallChunks count).drop (0 + 1)) =
          (ascii "\r\n".toList, true) := rfl
      have hfits : ¬maxDrainBytes < total + (0 + 1) := by omega
      have hlong : ¬(ascii "x\r\n".toList ++ smallChunks count).length < 0 + 1 := by
        rw [List.length_append]
        exact Nat.not_lt.mpr (Nat.le_add_right_of_le (by decide))
      have honward : ((ascii "x\r\n".toList ++ smallChunks count).drop (0 + 1)).drop
          (ascii "\r\n".toList).length = smallChunks count := rfl
      rw [chunkSpan]
      simp only [hline, hsize, hrest, hclose, if_neg hfits, if_neg hlong, Bool.true_eq_false,
        if_false, honward, ih (show total + (0 + 1) + count ≤ maxDrainBytes by omega)]
      have htotal : total + (0 + 1) + count = total + (count + 1) := by omega
      rw [htotal]
      exact congrArg (ChunkSpan.mk (total + (count + 1)) · true) rfl

@[simp] theorem smallChunks_length (count : Nat) : (smallChunks count).length = 6 * count + 5 := by
  induction count with
  | zero => rfl
  | succ count ih =>
      rw [smallChunks, List.length_append, ih]
      have hchunk : (ascii "1\r\nx\r\n".toList).length = 6 := rfl
      omega

/-- Neither limit holds of every upstream: a length that no machine word holds is taken for no
body, and chunks of one byte cost six. -/
theorem drain_limits_broken :
    ¬DrainsWithin overlongHeaders quietSocket ∧
      ¬DrainsWithin chunkedHeaders { quietSocket with incoming := smallChunks 200000 } := by
  constructor
  · intro hwithin
    exact hwithin.declared 18446744073709551616 (by decide +kernel) (by decide) rfl
  · rw [drainsWithin_iff]
    intro hfits
    have hframing := hfits.framing (by decide) (by decide)
    rw [socketSpan, chunkSpan_smallChunks _ (by decide), smallChunks_length] at hframing
    exact absurd hframing (by decide)

end Zicade.Upstream
