import Zicade.Foundation.Utf8
import Zicade.Net.Socket
import Zicade.Upstream.AuthState

/-! # Wire helpers of the upstream conversation

A response head is read strictly up to its terminator, one byte at a time, and
a body is drained by its declared framing. The loops carry the number of rounds
they may still make; the limits of the source stop them before it runs out.
-/

namespace Zicade.Upstream

open Zicade.Foundation Zicade.Net

def cr : UInt8 := 13

def lf : UInt8 := 10

def crlf : Bytes := [cr, lf]

/-- `MAX_HEAD_BYTES`. -/
def maxHeadBytes : Nat := 64 * 1024

/-- `MAX_DRAIN_BYTES`. -/
def maxDrainBytes : Nat := 1024 * 1024

/-- The number of values of `usize`. -/
def usizeValues : Nat := 0x10000000000000000

/-- Status code and lowercased header pairs. -/
abbrev Head := Nat × Headers

/-! ## Parsing -/

/-- `split("\r\n")`. -/
def splitCrlf : Text → List Text
  | [] => [[]]
  | '\r' :: '\n' :: rest => [] :: splitCrlf rest
  | c :: rest => (splitCrlf rest).modifyHead (c :: ·)

/-- The status code of a status line, zero when there is none. -/
def parseStatus (line : Text) : Nat :=
  ((splitWhitespace line)[1]?.bind (fromStrRadix 10 65536)).getD 0

def parseHeaderLine (line : Text) : Option (Text × Text) :=
  if line.isEmpty then none
  else (splitOnce ':' line).map fun (k, v) => (toAsciiLowercase (trim k), trim v)

def parseHead (buf : Bytes) : Head :=
  let lines := splitCrlf (fromUtf8Lossy buf)
  (parseStatus (lines.headD []), lines.tail.filterMap parseHeaderLine)

/-- The first value of a header. -/
def header (headers : Headers) (name : Text) : Option Text :=
  (headers.find? fun header => header.1 == name).map Prod.snd

def contentLength (headers : Headers) : Option Nat :=
  (header headers "content-length".toList).bind (fromStrRadix 10 usizeValues)

def isChunked (headers : Headers) : Bool :=
  ((header headers "transfer-encoding".toList).map fun value =>
    contains "chunked".toList (toAsciiLowercase value)).getD false

/-! ## Reading -/

/-- The byte loop of `read_head` and `read_line`: one byte a round until the
buffer ends with the terminator or outgrows the limit. -/
def readUntil (terminator : Bytes) (atEof : Bytes → Wire IoError Bytes) (tooLong : IoError) :
    Nat → Bytes → Wire IoError Bytes
  | 0, _ => Wire.fail tooLong
  | rounds + 1, buf => do
      match ← read 1 with
      | [] => atEof buf
      | byte :: _ =>
          let buf := buf ++ [byte]
          if terminator.isSuffixOf buf then pure buf
          else if maxHeadBytes < buf.length then Wire.fail tooLong
          else readUntil terminator atEof tooLong rounds buf

def closedInHead : IoError := ⟨.unexpectedEof, "upstream closed before response head completed"⟩

def headTooLarge : IoError := .ofMessage "upstream response head too large"

def readHead : Wire IoError Head := do
  let buf ← readUntil (crlf ++ crlf) (fun _ => Wire.fail closedInHead) headTooLarge
    (maxHeadBytes + 1) []
  pure (parseHead buf)

def lineTooLong : IoError := .ofMessage "chunk line too long"

/-- A line with its line feed, or what is left of the stream. -/
def readLine : Wire IoError Text := do
  let buf ← readUntil [lf] pure lineTooLong (maxHeadBytes + 1) []
  pure (fromUtf8Lossy buf)

def tooLarge : IoError := .ofMessage "upstream non-final response body too large"

def closedInBody : IoError := ⟨.unexpectedEof, "upstream closed mid-body"⟩

def discardLoop : Nat → Nat → Wire IoError Unit
  | _, 0 => pure ()
  | 0, _ + 1 => pure ()
  | rounds + 1, left + 1 => do
      match ← read (min (left + 1) 8192) with
      | [] => Wire.fail closedInBody
      | bytes => discardLoop rounds (left + 1 - bytes.length)

/-- Read exactly `len` bytes and drop them. -/
def discard (len : Nat) : Wire IoError Unit :=
  if maxDrainBytes < len then Wire.fail tooLarge else discardLoop len len

/-- The size a chunk line declares: what stands before its extensions. -/
def chunkSize (line : Text) : Option Nat :=
  fromStrRadix 16 usizeValues (trim (((trim line).splitOn ';').headD []))

def invalidChunkSize : IoError := .ofMessage "invalid chunk size"

def drainChunkedLoop : Nat → Nat → Wire IoError Unit
  | 0, _ => Wire.fail tooLarge
  | rounds + 1, total => do
      match chunkSize (← readLine) with
      | none => Wire.fail invalidChunkSize
      | some 0 => do
          -- trailing CRLF
          let _ ← readLine
          pure ()
      | some size => do
          let total := min (total + size) (usizeValues - 1)
          if maxDrainBytes < total then Wire.fail tooLarge
          else do
            discard size
            -- CRLF after the chunk data
            let _ ← readLine
            drainChunkedLoop rounds total

def drainChunked : Wire IoError Unit := drainChunkedLoop (maxDrainBytes + 1) 0

/-- Discard a non-final response body according to its framing. -/
def drainBody (headers : Headers) : Wire IoError Unit :=
  match contentLength headers with
  | some len => discard len
  | none => if isChunked headers then drainChunked else pure ()

def closedBeforeResponse : IoError := ⟨.unexpectedEof, "upstream closed before responding"⟩

/-- Wait for a response byte without consuming it. -/
def awaitResponse : Wire IoError Unit := do
  match ← peek with
  | 0 => Wire.fail closedBeforeResponse
  | _ => pure ()

/-! ## The limits stop the loops -/

/-- Rounds past the head limit change nothing. -/
theorem readUntil_more (terminator : Bytes) (atEof : Bytes → Wire IoError Bytes)
    (tooLong : IoError) (more : Nat) {rounds : Nat} {buf : Bytes}
    (hbuf : buf.length ≤ maxHeadBytes) (hrounds : maxHeadBytes + 1 ≤ buf.length + rounds) :
    readUntil terminator atEof tooLong (rounds + more) buf =
      readUntil terminator atEof tooLong rounds buf := by
  induction rounds generalizing buf with
  | zero => omega
  | succ rounds ih =>
      rw [Nat.add_right_comm, readUntil, readUntil]
      congr 1
      funext bytes
      cases bytes with
      | nil => rfl
      | cons byte rest =>
          have hlength : (buf ++ [byte]).length = buf.length + 1 := by simp
          dsimp only
          split
          next => rfl
          next =>
            split
            next => rfl
            next hlimit => exact ih (Nat.le_of_not_lt hlimit) (by omega)

/-- Each read takes a byte, so as many rounds as bytes are enough. -/
theorem discardLoop_more (more : Nat) {rounds left : Nat} (hrounds : left ≤ rounds) :
    discardLoop (rounds + more) left = discardLoop rounds left := by
  induction rounds generalizing left with
  | zero =>
      obtain rfl : left = 0 := Nat.le_zero.mp hrounds
      cases more <;> rfl
  | succ rounds ih =>
      rw [Nat.add_right_comm]
      cases left with
      | zero => rfl
      | succ left =>
          rw [discardLoop, discardLoop]
          congr 1
          funext bytes
          cases bytes with
          | nil => rfl
          | cons byte rest =>
              apply ih
              rw [List.length_cons]
              omega

/-- Each chunk has a byte at least, so the drain limit ends the chunk loop. -/
theorem drainChunkedLoop_more (more : Nat) {rounds total : Nat} (htotal : total ≤ maxDrainBytes)
    (hrounds : maxDrainBytes + 1 ≤ rounds + total) :
    drainChunkedLoop (rounds + more) total = drainChunkedLoop rounds total := by
  induction rounds generalizing total with
  | zero => omega
  | succ rounds ih =>
      have husize : maxDrainBytes < usizeValues - 1 := by decide
      rw [Nat.add_right_comm, drainChunkedLoop, drainChunkedLoop]
      congr 1
      funext line
      split
      next => rfl
      next => rfl
      next size hzero _ =>
        dsimp only
        split
        next => rfl
        next hlimit =>
          have hpos : size ≠ 0 := fun h => hzero h
          have hrest : drainChunkedLoop (rounds + more) (min (total + size) (usizeValues - 1)) =
              drainChunkedLoop rounds (min (total + size) (usizeValues - 1)) :=
            ih (Nat.le_of_not_lt hlimit) (by omega)
          rw [hrest]

/-! ## What the loops take off the stream -/

/-- `bytes` ends with the terminator, and no shorter prefix of it does. -/
def EndsFirst (terminator bytes : Bytes) : Prop :=
  terminator <:+ bytes ∧ ∀ before, before <+: bytes → terminator <:+ before → before = bytes

/-- Text that ends at its first terminator is read exactly, unless it outgrows
the limit. -/
theorem readUntil_of_endsFirst {terminator bytes : Bytes} (atEof : Bytes → Wire IoError Bytes)
    (tooLong : IoError) (hends : EndsFirst terminator bytes) {buf more rest : Bytes}
    (hbytes : buf ++ more = bytes) (hmore : more ≠ []) {rounds : Nat}
    (hrounds : buf.length + rounds = maxHeadBytes + 1) {socket : Socket}
    (hincoming : socket.incoming = more ++ rest) :
    ReadsWithin (readUntil terminator atEof tooLong rounds buf) socket
      (bytes.length ≤ maxHeadBytes + 1) more bytes := by
  induction more generalizing buf rounds socket with
  | nil => exact absurd rfl hmore
  | cons byte more ih =>
      cases rounds with
      | zero =>
          refine ⟨socket, .inr ⟨?_, tooLong, rfl⟩⟩
          rw [← hbytes, List.length_append, List.length_cons]
          omega
      | succ rounds =>
          obtain ⟨after, hread, hconsumed⟩ := read_one hincoming
          have hround : readUntil terminator atEof tooLong (rounds + 1) buf socket =
              (if terminator.isSuffixOf (buf ++ [byte]) then pure (buf ++ [byte])
                else if maxHeadBytes < (buf ++ [byte]).length then Wire.fail tooLong
                else readUntil terminator atEof tooLong rounds (buf ++ [byte])) after := by
            rw [readUntil, Wire.bind_of_ok _ hread]
          have hwhole : (buf ++ [byte]) ++ more = bytes := by simp [← hbytes]
          have hlength : (buf ++ [byte]).length = buf.length + 1 := by simp
          rw [ReadsWithin, hround]
          -- the terminator ends the loop only where the text itself ends
          by_cases hsuffix : terminator.isSuffixOf (buf ++ [byte])
          · have heq : buf ++ [byte] = bytes :=
              hends.2 _ ⟨more, hwhole⟩ (List.isSuffixOf_iff_suffix.mp hsuffix)
            have hnil : more = [] := by
              rw [heq] at hwhole
              exact List.append_right_eq_self.mp hwhole
            subst hnil
            refine ⟨after, .inl ⟨?_, hconsumed, ?_⟩⟩
            · rw [← heq, hlength]
              omega
            · rw [if_pos hsuffix, heq]
              rfl
          · have hne : more ≠ [] := by
              rintro rfl
              rw [List.append_nil] at hwhole
              exact hsuffix (List.isSuffixOf_iff_suffix.mpr (hwhole ▸ hends.1))
            rw [if_neg hsuffix]
            by_cases hlimit : maxHeadBytes < (buf ++ [byte]).length
            · refine ⟨after, .inr ⟨?_, tooLong, ?_⟩⟩
              · have hpos : 0 < more.length := List.length_pos_iff.mpr hne
                rw [← hwhole, List.length_append]
                omega
              · rw [if_pos hlimit]
                rfl
            · rw [if_neg hlimit]
              -- the round spent is the byte gained, so the bound on both carries over
              have hleft : (buf ++ [byte]).length + rounds = maxHeadBytes + 1 := by
                rw [hlength]
                omega
              obtain ⟨final, hfinal⟩ := ih hwhole hne hleft (hconsumed.incoming_eq hincoming)
              refine ⟨final, hfinal.imp ?_ id⟩
              rintro ⟨hle, hmoreConsumed, hok⟩
              exact ⟨hle, hconsumed.trans hmoreConsumed, hok⟩

theorem EndsFirst.ne_nil {terminator bytes : Bytes} (hends : EndsFirst terminator bytes)
    (hterminator : terminator ≠ []) : bytes ≠ [] := by
  rintro rfl
  exact hterminator (List.suffix_nil.mp hends.1)

theorem readHead_of_endsFirst {bytes rest : Bytes} (hends : EndsFirst (crlf ++ crlf) bytes)
    {socket : Socket} (hincoming : socket.incoming = bytes ++ rest) :
    ReadsWithin readHead socket (bytes.length ≤ maxHeadBytes + 1) bytes (parseHead bytes) := by
  have hbuf := readUntil_of_endsFirst (fun _ => Wire.fail closedInHead) headTooLarge
    hends (List.nil_append bytes) (hends.ne_nil (by decide)) (Nat.zero_add _) hincoming
  have hhead := hbuf.bind (fun buf => pure (parseHead buf))
    fun after _ => ReadsWithin.pure after (parseHead bytes)
  rw [List.append_nil] at hhead
  exact hhead.congr (and_iff_left trivial)

theorem readLine_of_endsFirst {bytes rest : Bytes} (hends : EndsFirst [lf] bytes)
    {socket : Socket} (hincoming : socket.incoming = bytes ++ rest) :
    ReadsWithin readLine socket (bytes.length ≤ maxHeadBytes + 1) bytes (fromUtf8Lossy bytes) := by
  have hbuf := readUntil_of_endsFirst pure lineTooLong hends (List.nil_append bytes)
    (hends.ne_nil (by decide)) (Nat.zero_add _) hincoming
  have hline := hbuf.bind (fun buf => pure (fromUtf8Lossy buf))
    fun after _ => ReadsWithin.pure after (fromUtf8Lossy bytes)
  rw [List.append_nil] at hline
  exact hline.congr (and_iff_left trivial)

/-- Discarding takes exactly the bytes it was asked to, in however many reads. -/
theorem discardLoop_of_incoming {rounds : Nat} {bytes rest : Bytes} {socket : Socket}
    (hrounds : bytes.length ≤ rounds) (hincoming : socket.incoming = bytes ++ rest) :
    ∃ after, discardLoop rounds bytes.length socket = (.ok (), after) ∧
      Consumed socket after bytes := by
  induction rounds generalizing bytes socket with
  | zero =>
      have hnil : bytes = [] := List.length_eq_zero_iff.mp (Nat.le_zero.mp hrounds)
      subst hnil
      exact ⟨socket, rfl, Consumed.refl socket⟩
  | succ rounds ih =>
      cases hbytes : bytes.length with
      | zero =>
          have hnil : bytes = [] := List.length_eq_zero_iff.mp hbytes
          subst hnil
          exact ⟨socket, rfl, Consumed.refl socket⟩
      | succ left =>
          have hne : socket.incoming ≠ [] := by
            rw [hincoming]
            intro h
            rw [List.append_eq_nil_iff] at h
            simp [h.1] at hbytes
          obtain ⟨count, middle, hcount, hread, hconsumed⟩ :=
            read_of_incoming (min (left + 1) 8192) hne
          -- whatever the burst was, one read takes at least a byte and not past the body
          generalize htaken : min (min (left + 1) 8192) count = taken at hread hconsumed
          have hpos : 0 < taken := by omega
          have hle : taken ≤ bytes.length := by omega
          have htake : socket.incoming.take taken = bytes.take taken := by
            rw [hincoming, List.take_append_of_le_length hle]
          rw [htake] at hread hconsumed
          have hlength : (bytes.take taken).length = taken := List.length_take_of_le hle
          have hround : discardLoop (rounds + 1) (left + 1) socket =
              discardLoop rounds (left + 1 - taken) middle := by
            rw [discardLoop, Wire.bind_of_ok _ hread]
            cases hfirst : bytes.take taken with
            | nil => simp [hfirst] at hlength; omega
            | cons byte more =>
                change discardLoop rounds (left + 1 - (byte :: more).length) middle = _
                rw [← hfirst, hlength]
          have hrest : middle.incoming = bytes.drop taken ++ rest := by
            apply hconsumed.incoming_eq
            rw [← List.append_assoc, List.take_append_drop]
            exact hincoming
          have hleft : (bytes.drop taken).length ≤ rounds := by
            rw [List.length_drop]
            omega
          obtain ⟨after, hafter, hmore⟩ := ih hleft hrest
          refine ⟨after, ?_, ?_⟩
          · rw [hround, ← hbytes, ← List.length_drop]
            exact hafter
          · have := hconsumed.trans hmore
            rwa [List.take_append_drop] at this

theorem discard_of_incoming {bytes rest : Bytes} {socket : Socket}
    (hincoming : socket.incoming = bytes ++ rest) :
    ReadsWithin (discard bytes.length) socket (bytes.length ≤ maxDrainBytes) bytes () := by
  by_cases hlimit : bytes.length ≤ maxDrainBytes
  · obtain ⟨after, hok, hconsumed⟩ := discardLoop_of_incoming le_rfl hincoming
    refine ⟨after, .inl ⟨hlimit, hconsumed, ?_⟩⟩
    rw [discard, if_neg (Nat.not_lt.mpr hlimit), hok]
  · refine ⟨socket, .inr ⟨hlimit, tooLarge, ?_⟩⟩
    rw [discard, if_pos (Nat.lt_of_not_le hlimit)]
    rfl

/-- A discard that succeeded took as many bytes as it was asked to. -/
theorem length_of_discardLoop_ok {rounds left : Nat} (hrounds : left ≤ rounds)
    {socket after : Socket} (hok : discardLoop rounds left socket = (.ok (), after)) :
    ∃ bytes, bytes.length = left ∧ Consumed socket after bytes := by
  induction rounds generalizing left socket with
  | zero =>
      have hzero : left = 0 := Nat.le_zero.mp hrounds
      subst hzero
      obtain ⟨-, rfl⟩ := Prod.mk.inj hok
      exact ⟨[], rfl, Consumed.refl socket⟩
  | succ rounds ih =>
      cases left with
      | zero =>
          obtain ⟨-, rfl⟩ := Prod.mk.inj hok
          exact ⟨[], rfl, Consumed.refl socket⟩
      | succ left =>
          obtain ⟨bytes, hconsumed, hlength, hvalue⟩ := read_consumes (min (left + 1) 8192) socket
          rw [discardLoop, Wire.bind_apply] at hok
          split at hok
          next value middle hread =>
            rw [hread] at hconsumed hvalue
            have hbytes : value = bytes := hvalue value rfl
            subst hbytes
            cases value with
            | nil => cases (Prod.mk.inj hok).1
            | cons b more =>
                obtain ⟨rest, hrest, hmore⟩ := ih (by simp only [List.length_cons]; omega) hok
                refine ⟨(b :: more) ++ rest, ?_, hconsumed.trans hmore⟩
                rw [List.length_append, hrest]
                omega
          next => cases (Prod.mk.inj hok).1

theorem length_of_discard_ok {len : Nat} {socket after : Socket}
    (hok : discard len socket = (.ok (), after)) :
    ∃ bytes, bytes.length = len ∧ Consumed socket after bytes := by
  unfold discard at hok
  split at hok
  next => cases (Prod.mk.inj hok).1
  next => exact length_of_discardLoop_ok le_rfl hok

/-! ## What the loops log -/

theorem logs_readUntil (terminator : Bytes) {atEof : Bytes → Wire IoError Bytes}
    (hatEof : ∀ buf, Logs (atEof buf)) (tooLong : IoError) (rounds : Nat) (buf : Bytes) :
    Logs (readUntil terminator atEof tooLong rounds buf) := by
  induction rounds generalizing buf with
  | zero => exact .fail tooLong
  | succ rounds ih =>
      refine (Logs.read 1).bind fun bytes => ?_
      cases bytes with
      | nil => exact hatEof buf
      | cons byte rest =>
          dsimp only
          split
          next => exact .pure _
          next =>
            split
            next => exact .fail tooLong
            next => exact ih _

theorem logs_readHead : Logs readHead :=
  (logs_readUntil _ (fun _ => .fail closedInHead) _ _ _).bind fun _ => .pure _

theorem logs_readLine : Logs readLine :=
  (logs_readUntil _ (fun _ => .pure _) _ _ _).bind fun _ => .pure _

theorem logs_discardLoop (rounds left : Nat) : Logs (discardLoop rounds left) := by
  induction rounds generalizing left with
  | zero => cases left <;> exact .pure ()
  | succ rounds ih =>
      cases left with
      | zero => exact .pure ()
      | succ left =>
          refine (Logs.read _).bind fun bytes => ?_
          cases bytes with
          | nil => exact .fail closedInBody
          | cons byte rest => exact ih _

theorem logs_discard (len : Nat) : Logs (discard len) := by
  unfold discard
  split
  next => exact .fail tooLarge
  next => exact logs_discardLoop len len

theorem logs_drainChunkedLoop (rounds total : Nat) : Logs (drainChunkedLoop rounds total) := by
  induction rounds generalizing total with
  | zero => exact .fail tooLarge
  | succ rounds ih =>
      refine logs_readLine.bind fun line => ?_
      split
      next => exact .fail invalidChunkSize
      next => exact logs_readLine.bind fun _ => .pure ()
      next =>
        dsimp only
        split
        next => exact .fail tooLarge
        next => exact (logs_discard _).bind fun _ => logs_readLine.bind fun _ => ih _

theorem logs_drainBody (headers : Headers) : Logs (drainBody headers) := by
  unfold drainBody
  split
  next => exact logs_discard _
  next =>
    split
    next => exact logs_drainChunkedLoop _ _
    next => exact .pure ()

theorem logs_awaitResponse : Logs awaitResponse := by
  refine Logs.peek.bind fun count => ?_
  split
  next => exact .fail closedBeforeResponse
  next => exact .pure ()

/-! ## What the loops report

An error that the socket never fails with and that is none of the helpers' own comes
from elsewhere.
-/

/-- The errors the wire helpers make themselves. -/
def wireErrors : List IoError :=
  [closedInHead, headTooLarge, lineTooLong, tooLarge, closedInBody, invalidChunkSize,
    closedBeforeResponse]

section

variable {err : IoError} (hown : err ∉ wireErrors)

theorem ne_of_not_mem_wireErrors {error : IoError} (hmem : error ∈ wireErrors)
    (hown : err ∉ wireErrors) : error ≠ err := by
  rintro rfl
  exact hown hmem

theorem avoids_readUntil (terminator : Bytes) {atEof : Bytes → Wire IoError Bytes}
    (hatEof : ∀ buf, Avoids err err (atEof buf)) {tooLong : IoError} (htooLong : tooLong ≠ err)
    (rounds : Nat) (buf : Bytes) :
    Avoids err err (readUntil terminator atEof tooLong rounds buf) := by
  induction rounds generalizing buf with
  | zero => exact .fail htooLong
  | succ rounds ih =>
      refine (Avoids.read 1).bind fun bytes => ?_
      cases bytes with
      | nil => exact hatEof buf
      | cons byte rest =>
          dsimp only
          split
          next => exact .pure _
          next =>
            split
            next => exact .fail htooLong
            next => exact ih _

include hown

theorem avoids_readHead : Avoids err err readHead :=
  (avoids_readUntil _ (fun _ => .fail (ne_of_not_mem_wireErrors (by decide) hown))
    (ne_of_not_mem_wireErrors (by decide) hown) _ _).bind fun _ => .pure _

theorem avoids_readLine : Avoids err err readLine :=
  (avoids_readUntil _ (fun _ => .pure _) (ne_of_not_mem_wireErrors (by decide) hown) _ _).bind
    fun _ => .pure _

theorem avoids_discardLoop (rounds left : Nat) : Avoids err err (discardLoop rounds left) := by
  induction rounds generalizing left with
  | zero => cases left <;> exact .pure ()
  | succ rounds ih =>
      cases left with
      | zero => exact .pure ()
      | succ left =>
          refine (Avoids.read _).bind fun bytes => ?_
          cases bytes with
          | nil => exact .fail (ne_of_not_mem_wireErrors (by decide) hown)
          | cons byte rest => exact ih _

theorem avoids_discard (len : Nat) : Avoids err err (discard len) := by
  unfold discard
  split
  next => exact .fail (ne_of_not_mem_wireErrors (by decide) hown)
  next => exact avoids_discardLoop hown len len

theorem avoids_drainChunkedLoop (rounds total : Nat) :
    Avoids err err (drainChunkedLoop rounds total) := by
  induction rounds generalizing total with
  | zero => exact .fail (ne_of_not_mem_wireErrors (by decide) hown)
  | succ rounds ih =>
      refine (avoids_readLine hown).bind fun line => ?_
      split
      next => exact .fail (ne_of_not_mem_wireErrors (by decide) hown)
      next => exact (avoids_readLine hown).bind fun _ => .pure ()
      next =>
        dsimp only
        split
        next => exact .fail (ne_of_not_mem_wireErrors (by decide) hown)
        next =>
          exact (avoids_discard hown _).bind fun _ => (avoids_readLine hown).bind fun _ => ih _

theorem avoids_drainBody (headers : Headers) : Avoids err err (drainBody headers) := by
  unfold drainBody
  split
  next => exact avoids_discard hown _
  next =>
    split
    next => exact avoids_drainChunkedLoop hown _ _
    next => exact .pure ()

theorem avoids_awaitResponse : Avoids err err awaitResponse := by
  refine Avoids.peek.bind fun count => ?_
  split
  next => exact .fail (ne_of_not_mem_wireErrors (by decide) hown)
  next => exact .pure ()

end

end Zicade.Upstream
