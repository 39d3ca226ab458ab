import Zicade.Upstream.FramingLaws

/-! # Draining a body takes exactly its bytes

The chunk loop follows the chunks of a body and then reads one more line, so it
stops where the body does only if the trailer section is empty. `Drainable`
states when the framing the code picks is the framing of the message.
-/

namespace Zicade.Upstream

open Zicade.Foundation Zicade.Net

/-! ## Chunks -/

def lineLimit (line : Bytes) : Prop := line.length ≤ maxHeadBytes + 1

/-- The limits on a chunked body of which `total` bytes are drained already. -/
def ChunksWithin (total : Nat) (chunks : List Chunk) (last : SizeLine) (closing : Bytes) : Prop :=
  total + (chunks.flatMap (·.data)).length ≤ maxDrainBytes ∧
    (∀ chunk ∈ chunks, lineLimit chunk.line.encode) ∧ lineLimit last.encode ∧ lineLimit closing

theorem readLine_sizeLine (line : SizeLine) {rest : Bytes} {socket : Socket}
    (hincoming : socket.incoming = line.encode ++ rest) :
    ReadsWithin readLine socket (lineLimit line.encode) line.encode
      (fromUtf8Lossy line.encode) :=
  readLine_of_endsFirst (endsFirst_sizeLine line) hincoming

theorem readLine_crlf {rest : Bytes} {socket : Socket}
    (hincoming : socket.incoming = crlf ++ rest) :
    ReadsWithin readLine socket True crlf (fromUtf8Lossy crlf) := by
  apply (readLine_of_endsFirst endsFirst_crlf hincoming).congr
  exact iff_true_intro (by decide)

/-- The loop takes the chunks, the last-chunk line, and one more line. -/
theorem drainChunkedLoop_reads {chunks : List Chunk} {last : SizeLine} (hlast : last.size = 0)
    {closing rest : Bytes} (hclosing : EndsFirst [lf] closing) {rounds total : Nat}
    (htotal : total ≤ maxDrainBytes) (hrounds : maxDrainBytes + 1 ≤ rounds + total)
    {socket : Socket} (hincoming : socket.incoming =
      chunks.flatMap Chunk.encode ++ (last.encode ++ (closing ++ rest))) :
    ReadsWithin (drainChunkedLoop rounds total) socket (ChunksWithin total chunks last closing)
      (chunks.flatMap Chunk.encode ++ (last.encode ++ closing)) () := by
  induction chunks generalizing rounds total socket with
  | nil =>
      cases rounds with
      | zero => omega
      | succ rounds =>
          have hbytes : socket.incoming = last.encode ++ (closing ++ rest) := hincoming
          have hsize : chunkSize (fromUtf8Lossy last.encode) = some 0 := by
            rw [chunkSize_sizeLine, hlast]
            rfl
          have hround : ReadsWithin (drainChunkedLoop (rounds + 1) total) socket
              (lineLimit last.encode ∧ lineLimit closing) (last.encode ++ closing) () := by
            rw [drainChunkedLoop]
            refine (readLine_sizeLine last hbytes).bind _ fun after hconsumed => ?_
            rw [hsize]
            have hclose := readLine_of_endsFirst hclosing (hconsumed.incoming_eq hbytes)
            have hreturn := hclose.bind (fun _ => pure ()) fun after _ => ReadsWithin.pure after ()
            rw [List.append_nil] at hreturn
            exact hreturn.congr (and_iff_left trivial)
          apply hround.congr
          simp [ChunksWithin, htotal]
  | cons chunk chunks ih =>
      cases rounds with
      | zero => omega
      | succ rounds =>
          have hbytes : socket.incoming = chunk.line.encode ++ (chunk.data ++ (crlf ++
              (chunks.flatMap Chunk.encode ++ (last.encode ++ (closing ++ rest))))) := by
            rw [hincoming]
            simp [Chunk.encode]
          have hpos : 0 < chunk.data.length := List.length_pos_iff.mpr chunk.data_ne_nil
          have hround : ReadsWithin (drainChunkedLoop (rounds + 1) total) socket
              (lineLimit chunk.line.encode ∧
                ChunksWithin (total + chunk.data.length) chunks last closing)
              (chunk.line.encode ++ (chunk.data ++ (crlf ++
                (chunks.flatMap Chunk.encode ++ (last.encode ++ closing))))) () := by
            rw [drainChunkedLoop]
            refine (readLine_sizeLine chunk.line hbytes).bind _ fun after hconsumed => ?_
            have hafter := hconsumed.incoming_eq hbytes
            rw [chunkSize_sizeLine, chunk.line_size]
            -- a size past the drain limit breaks the limits of the whole body
            have hover : ¬total + chunk.data.length ≤ maxDrainBytes →
                ¬ChunksWithin (total + chunk.data.length) chunks last closing :=
              fun hnot hwithin => hnot (by have := hwithin.1; omega)
            have hmax : maxDrainBytes < usizeValues - 1 := by decide
            -- a size beyond `usize` is refused as no size at all
            by_cases husize : chunk.data.length < usizeValues
            · obtain ⟨size, hsize⟩ : ∃ size, chunk.data.length = size + 1 :=
                ⟨chunk.data.length - 1, by omega⟩
              rw [if_pos husize]
              simp only [hsize]
              rw [← hsize]
              by_cases hlimit : total + chunk.data.length ≤ maxDrainBytes
              · have hmin : min (total + chunk.data.length) (usizeValues - 1) =
                    total + chunk.data.length := by omega
                have hleft : maxDrainBytes + 1 ≤ rounds + (total + chunk.data.length) := by omega
                rw [hmin, if_neg (Nat.not_lt.mpr hlimit)]
                have hrest := (discard_of_incoming hafter).bind
                  (fun _ => readLine >>= fun _ =>
                    drainChunkedLoop rounds (total + chunk.data.length))
                  fun first hfirst => (readLine_crlf (hfirst.incoming_eq hafter)).bind _
                    fun second hsecond => ih hlimit hleft
                      (hsecond.incoming_eq (hfirst.incoming_eq hafter))
                apply hrest.congr
                rw [true_and]
                exact and_iff_right (by omega)
              · refine ⟨after, .inr ⟨hover hlimit, tooLarge, ?_⟩⟩
                rw [if_pos (by omega)]
                rfl
            · rw [if_neg husize]
              exact ⟨after, .inr ⟨hover (by omega), invalidChunkSize, rfl⟩⟩
          have hlimits : ChunksWithin total (chunk :: chunks) last closing ↔
              lineLimit chunk.line.encode ∧
                ChunksWithin (total + chunk.data.length) chunks last closing := by
            simp only [ChunksWithin, List.flatMap_cons, List.length_append, List.forall_mem_cons,
              Nat.add_assoc]
            tauto
          have hsplit : (chunk :: chunks).flatMap Chunk.encode ++ (last.encode ++ closing) =
              chunk.line.encode ++ (chunk.data ++ (crlf ++
                (chunks.flatMap Chunk.encode ++ (last.encode ++ closing)))) := by
            simp [Chunk.encode]
          rw [hsplit]
          exact hround.congr hlimits.symm

/-! ## Framing headers -/

theorem header_eq_head? (headers : Headers) (name : Text) :
    header headers name = (fieldValues headers name).head? := by
  rw [header, fieldValues, List.head?_map, List.head?_filter]

theorem isChunked_of_no_values {headers : Headers}
    (hnone : fieldValues headers transferEncoding = []) : isChunked headers = false := by
  have hheader : header headers transferEncoding = none := by
    rw [header_eq_head?, hnone]
    rfl
  change ((header headers transferEncoding).map _).getD false = false
  rw [hheader]
  rfl

namespace Response

/-- Whether the framing the proxy picks is the framing of the body: any length
it parses is the number of bytes on the wire, and without one a chunked body is
announced by its first `Transfer-Encoding` field and has no trailers. -/
def Drainable (response : Response) : Prop :=
  match contentLength response.head.headers with
  | some len => len = response.body.encode.length
  | none =>
      match response.body with
      | .empty => True
      | .sized _ => True
      | .chunked _ _ trailers => isChunked response.head.headers = true ∧ trailers = []

/-- The body is within the limits of the reader it is given to. -/
def DrainLimit (response : Response) : Prop :=
  match contentLength response.head.headers with
  | some len => len ≤ maxDrainBytes
  | none =>
      match response.body with
      | .empty => True
      | .sized _ => True
      | .chunked chunks last trailers =>
          ChunksWithin 0 chunks last
            (match trailers with | [] => crlf | trailer :: _ => trailer.line ++ crlf)

theorem contentLength_of_sized {response : Response} {data : Bytes}
    (hbody : response.body = .sized data) (hsmall : response.body.size ≤ maxDrainBytes) :
    contentLength response.head.headers = some data.length := by
  have hframed := response.framed
  rw [hbody] at hframed hsmall
  obtain ⟨-, digits, hvalues, hne, hdigits⟩ := hframed
  have hlt : data.length < usizeValues := Nat.lt_of_le_of_lt hsmall (by decide)
  rw [contentLength, header_eq_head?, hvalues, List.head?_cons, Option.bind_some,
    fromStrRadix_of_digitsValue _ hne hdigits, if_pos hlt]

theorem not_isChunked_of_empty {response : Response} (hbody : response.body = .empty)
    (hstatus : bodiless response.head.status = false) :
    isChunked response.head.headers = false := by
  have hframed := response.framed
  rw [hbody] at hframed
  rcases hframed with hbodiless | ⟨hnone, -⟩
  · rw [hstatus] at hbodiless
    cases hbodiless
  · exact isChunked_of_no_values hnone

/-- A drainable body is taken exactly. -/
theorem drainBody_reads {response : Response} (hstatus : bodiless response.head.status = false)
    (hsmall : response.body.size ≤ maxDrainBytes) (hdrain : response.Drainable) {rest : Bytes}
    {socket : Socket} (hincoming : socket.incoming = response.body.encode ++ rest) :
    ReadsWithin (drainBody response.head.headers) socket response.DrainLimit
      response.body.encode () := by
  unfold drainBody
  unfold Drainable at hdrain
  unfold DrainLimit
  cases hlength : contentLength response.head.headers with
  | some len =>
      simp only [hlength] at hdrain
      subst hdrain
      exact discard_of_incoming hincoming
  | none =>
      simp only [hlength] at hdrain
      cases hbody : response.body with
      | empty =>
          rw [not_isChunked_of_empty hbody hstatus]
          exact ReadsWithin.pure socket ()
      | sized data =>
          rw [contentLength_of_sized hbody hsmall] at hlength
          cases hlength
      | chunked chunks last trailers =>
          simp only [hbody] at hdrain
          obtain ⟨hchunked, rfl⟩ := hdrain
          rw [hbody] at hincoming
          rw [hchunked, if_pos rfl]
          exact drainChunkedLoop_reads last.property endsFirst_crlf (Nat.zero_le _) le_rfl
            (by simpa [Body.encode, encodeLines] using hincoming)

theorem encode_ne_nil_of_chunked {response : Response} {chunks : List Chunk}
    {last : { line : SizeLine // line.size = 0 }} {trailers : List Field}
    (hbody : response.body = .chunked chunks last trailers) : response.body.encode ≠ [] := by
  intro hnil
  have hlength := congrArg List.length hnil
  rw [hbody] at hlength
  simp only [Body.encode, encodeLines, crlf, List.length_append, List.length_cons,
    List.length_nil] at hlength
  omega

/-- The drain leaves the stream at the next response exactly when the body is
drainable. -/
theorem drainBody_exact_iff {response : Response} (hstatus : bodiless response.head.status = false)
    (hsmall : response.body.size ≤ maxDrainBytes) (hlimit : response.DrainLimit) {rest : Bytes}
    {socket : Socket} (hincoming : socket.incoming = response.body.encode ++ rest) :
    (∃ after, drainBody response.head.headers socket = (.ok (), after) ∧ after.incoming = rest) ↔
      response.Drainable := by
  constructor
  · rintro ⟨after, hok, hrest⟩
    have hleft : after.incoming.length + response.body.encode.length = socket.incoming.length := by
      rw [hincoming, hrest, List.length_append, Nat.add_comm]
    unfold drainBody at hok
    unfold Drainable
    unfold DrainLimit at hlimit
    cases hlength : contentLength response.head.headers with
    | some len =>
        simp only [hlength] at hok ⊢
        obtain ⟨bytes, rfl, hconsumed⟩ := length_of_discard_ok hok
        have := hconsumed.incoming_length
        omega
    | none =>
        simp only [hlength] at hok hlimit ⊢
        cases hbody : response.body with
        | empty => trivial
        | sized data => trivial
        | chunked chunks last trailers =>
            simp only [hbody] at hlimit ⊢
            cases hchunked : isChunked response.head.headers with
            | false =>
                rw [hchunked] at hok
                obtain ⟨-, rfl⟩ := Prod.mk.inj hok
                exact absurd (List.length_eq_zero_iff.mp (by omega))
                  (encode_ne_nil_of_chunked hbody)
            | true =>
                rw [hchunked, if_pos rfl] at hok
                refine ⟨rfl, ?_⟩
                cases trailers with
                | nil => rfl
                | cons trailer trailers =>
                    -- the loop stops after the first trailer field
                    have hends : EndsFirst [lf] (trailer.line ++ crlf) := by
                      have hline : lf ∉ trailer.line ++ [cr] := by
                        rw [List.mem_append, not_or]
                        exact ⟨lf_not_mem_fieldLine trailer, by decide⟩
                      simpa [crlf] using endsFirst_line hline
                    have hbytes : socket.incoming = chunks.flatMap Chunk.encode ++
                        (last.val.encode ++ ((trailer.line ++ crlf) ++
                          (encodeLines (trailers.map Field.line) ++ rest))) := by
                      rw [hincoming, hbody]
                      simp [Body.encode, encodeLines]
                    have hreads := drainChunkedLoop_reads last.property hends (Nat.zero_le _)
                      (le_refl (maxDrainBytes + 1)) hbytes
                    obtain ⟨-, -, hconsumed⟩ := hreads.of_ok hok
                    have htaken := hconsumed.incoming_length
                    have hsize : 0 < (encodeLines (trailers.map Field.line)).length := by
                      simp [encodeLines, crlf]
                    rw [hbody] at hleft
                    simp only [Body.encode, encodeLines, List.map_cons, List.flatMap_cons,
                      List.length_append] at hleft htaken hsize
                    omega
  · intro hdrain
    obtain ⟨after, hok, hconsumed⟩ :=
      (drainBody_reads hstatus hsmall hdrain hincoming).exists_ok hlimit
    exact ⟨after, hok, hconsumed.incoming_eq hincoming⟩

end Response

end Zicade.Upstream
