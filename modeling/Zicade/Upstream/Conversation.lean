import Zicade.Auth.Base64
import Zicade.Upstream.Connect
import Zicade.Upstream.Draining

/-! # The handshake as a conversation

Seen from outside, a handshake is the heads a gateway answers with, in order.
On the wire every leg has to find the next head itself, after the body of the
one before. The wire handshake follows the conversation head for head as long as
each answered 407 is drainable, and hands over the tunnel at its first byte.
-/

namespace Zicade.Upstream

open Zicade.Foundation Zicade.Auth Zicade.Net

/-- A gateway as the heads it answers with. -/
def messageTransport : Transport (List Head) where
  sendLeg _ _ heads :=
    match heads with
    | [] => (.error (.err (.failed closedInHead)), [])
    | head :: rest => (.ok head, rest)
  drainBody _ heads := (.ok (), heads)

section

variable {σ : Type*} (base64 : Base64) (authenticator : Authenticator σ)

/-- The handshake with a gateway that answers with these heads. -/
def converse (reused : Bool) (auth : UpstreamAuth σ) (heads : List Head) :
    Exchange (List Head) :=
  handshakeOver base64 authenticator messageTransport reused auth heads

end

/-! ## One leg on the wire -/

theorem awaitResponse_of_incoming (socket : Socket) (hne : socket.incoming ≠ []) :
    ∃ after, awaitResponse socket = (.ok (), after) ∧ after.incoming = socket.incoming ∧
      after.writes = socket.writes := by
  rcases peek_cases socket with ⟨-, hpeek⟩ | ⟨hnil, -⟩
  · refine ⟨{ socket with log := socket.log ++ [.peeked] }, ?_, rfl, rfl⟩
    rw [awaitResponse, Wire.bind_of_ok _ hpeek]
    rfl
  · exact absurd hnil hne

/-- A leg reads the next head, unless a write fails or the head is too large. -/
theorem sendLeg_reads (dst : Text) (auth : Option Text) (firstReused : Bool)
    (head : ResponseHead) {rest : Bytes} {socket : Socket}
    (hincoming : socket.incoming = head.encode ++ rest) :
    ∃ after, (after.incoming = rest ∧ after.writes = socket.writes.tail ∧
        sendLeg dst auth firstReused socket = (.ok head.parsed, after)) ∨
      (¬(socket.Accepting ∧ lineLimit head.encode) ∧
        ∃ halt, sendLeg dst auth firstReused socket = (.error halt, after)) := by
  have hne : socket.incoming ≠ [] := by
    rw [hincoming]
    intro hnil
    exact head.endsFirst_encode.ne_nil (by decide) (List.append_eq_nil_iff.mp hnil).1
  let request := asBytes (connectRequest dst auth)
  rcases writeAll_cases request socket with hwrite | ⟨hnot, halt, hwrite⟩
  · -- the request is out; a reused socket first waits for a byte of the answer
    obtain ⟨awaited, hawaited, hwrites, hawait⟩ : ∃ awaited, awaited.incoming = socket.incoming ∧
        awaited.writes = socket.writes.tail ∧
        sendLeg dst auth firstReused socket = Wire.mapErr .failed readHead awaited := by
      cases firstReused with
      | false =>
          refine ⟨socket.wrote request, rfl, rfl, ?_⟩
          rw [sendLeg, Wire.bind_of_ok _ (Wire.mapErr_of_ok _ hwrite)]
          rfl
      | true =>
          obtain ⟨awaited, hawait, hsame, hwrites⟩ :=
            awaitResponse_of_incoming (socket.wrote request) hne
          refine ⟨awaited, hsame, hwrites, ?_⟩
          rw [sendLeg, Wire.bind_of_ok _ (Wire.mapErr_of_ok _ hwrite)]
          exact Wire.bind_of_ok _ (Wire.mapErr_of_ok _ hawait)
    have hbytes := hawaited.trans hincoming
    obtain ⟨after, ⟨-, hconsumed, hread⟩ | ⟨hlimit, err, hread⟩⟩ := head.readHead_encode hbytes
    · refine ⟨after, .inl ⟨hconsumed.incoming_eq hbytes, hconsumed.writes.trans hwrites, ?_⟩⟩
      rw [hawait, Wire.mapErr_of_ok _ hread]
    · refine ⟨after, .inr ⟨fun h => hlimit h.2, .err (.failed err), ?_⟩⟩
      rw [hawait, Wire.mapErr_of_error _ hread]
      rfl
  · refine ⟨socket.wrote request, .inr ⟨fun h => hnot h.1, halt.mapErr
      (if firstReused then Failure.stale else Failure.failed), ?_⟩⟩
    rw [sendLeg, Wire.bind_of_error _ (Wire.mapErr_of_error _ hwrite)]

/-! ## Every leg reads the next response -/

/-- What a gateway sends: responses, the head that grants the tunnel, and the
tunnel's first bytes. -/
def gatewayBytes (responses : List Response) (granted : ResponseHead) (tunnel : Bytes) : Bytes :=
  responses.flatMap Response.encode ++ (granted.encode ++ tunnel)

def gatewayHeads (responses : List Response) (granted : ResponseHead) : List Head :=
  responses.map (·.head.parsed) ++ [granted.parsed]

theorem gatewayBytes_cons (response : Response) (responses : List Response)
    (granted : ResponseHead) (tunnel : Bytes) :
    gatewayBytes (response :: responses) granted tunnel =
      response.head.encode ++ (response.body.encode ++ gatewayBytes responses granted tunnel) := by
  simp [gatewayBytes, Response.encode]

theorem ResponseHead.parsed_of_granted {granted : ResponseHead} (hgranted : granted.status = 200) :
    granted.parsed = (200, granted.headers) := by
  rw [parsed, hgranted]

/-- A 407 has a body to drain, whatever its framing. -/
theorem Response.drain407_reads {response : Response} (hstatus : response.head.status = 407)
    (hsmall : response.body.size ≤ maxDrainBytes) (hdrain : response.Drainable) {rest : Bytes}
    {socket : Socket} (hincoming : socket.incoming = response.body.encode ++ rest) :
    ReadsWithin (drainBody response.head.headers) socket response.DrainLimit
      response.body.encode () := by
  have hbodiless : bodiless response.head.status = false := by
    rw [hstatus]
    rfl
  exact response.drainBody_reads hbodiless hsmall hdrain hincoming

/-- The heads an exchange read are the first ones of `heads`, leg by leg, and a
tunnel is granted after all of them with nothing else consumed. -/
structure ReadsInOrder (exchange : Exchange Socket) (heads : List Head) (tunnel : Bytes) :
    Prop where
  legs : ∀ (i : Nat) (leg : Leg) (head : Head), exchange.legs[i]? = some leg →
    leg.head = some head → heads[i]? = some head
  granted : exchange.result = .ok () →
    exchange.legs.map (·.head) = heads.map some ∧ exchange.stream.incoming = tunnel

namespace ReadsInOrder

variable {heads : List Head} {tunnel : Bytes} {auth : Option Text} {halt : Halt Failure}
  {stream : Socket} {head : Head}

theorem of_no_legs : ReadsInOrder ⟨[], .error halt, stream⟩ heads tunnel :=
  ⟨by simp, by simp⟩

theorem of_single {leg : Leg} {result : Except (Halt Failure) Unit}
    (hleg : ∀ head, leg.head = some head → heads[0]? = some head)
    (hgranted : result = .ok () → [leg.head] = heads.map some ∧ stream.incoming = tunnel) :
    ReadsInOrder ⟨[leg], result, stream⟩ heads tunnel := by
  refine ⟨?_, hgranted⟩
  rintro (_ | i) other head hother hhead
  · simp only [List.getElem?_cons_zero, Option.some.injEq] at hother
    subst hother
    exact hleg head hhead
  · simp at hother

theorem of_unanswered : ReadsInOrder ⟨[⟨auth, none⟩], .error halt, stream⟩ heads tunnel :=
  of_single (by simp) (by simp)

theorem of_answered :
    ReadsInOrder ⟨[⟨auth, some head⟩], .error halt, stream⟩ (head :: heads) tunnel :=
  of_single (by simp) (by simp)

theorem of_granted (hstream : stream.incoming = tunnel) :
    ReadsInOrder ⟨[⟨auth, some head⟩], .ok (), stream⟩ [head] tunnel :=
  of_single (by simp) fun _ => ⟨rfl, hstream⟩

theorem cons {exchange : Exchange Socket} (h : ReadsInOrder exchange heads tunnel) :
    ReadsInOrder (exchange.cons ⟨auth, some head⟩) (head :: heads) tunnel := by
  constructor
  · rintro (_ | i) leg other hleg hother
    · simp only [Exchange.cons, List.getElem?_cons_zero, Option.some.injEq] at hleg
      subst hleg
      exact hother
    · exact h.legs i leg other (by simpa [Exchange.cons] using hleg) hother
  · intro hok
    obtain ⟨hheads, hstream⟩ := h.granted hok
    exact ⟨by simp [Exchange.cons, hheads], hstream⟩

end ReadsInOrder

section

variable {σ : Type*} (base64 : Base64) (authenticator : Authenticator σ) (dst : Text)
  (reused : Bool) {granted : ResponseHead} {tunnel : Bytes}

theorem handshakeLegs_readsInOrder (hgranted : granted.status = 200) {responses : List Response}
    (hrefused : ∀ response ∈ responses, response.head.status ≠ 200)
    (hsmall : ∀ response ∈ responses, response.body.size ≤ maxDrainBytes)
    (hdrain : ∀ response ∈ responses, response.head.status = 407 → response.Drainable)
    (left leg : Nat) (authState : AuthState σ) (auth : Option Text) {socket : Socket}
    (hincoming : socket.incoming = gatewayBytes responses granted tunnel) :
    ReadsInOrder (handshakeLegs base64 authenticator (wireTransport dst) reused left leg authState
      auth socket) (gatewayHeads responses granted) tunnel := by
  induction responses generalizing left leg authState auth socket with
  | nil =>
      cases left with
      | zero => exact .of_no_legs
      | succ left =>
          obtain ⟨after, ⟨hrest, -, hsend⟩ | ⟨-, halt, hsend⟩⟩ :=
            sendLeg_reads dst auth (reused && leg == 0) granted
              (by simpa [gatewayBytes] using hincoming)
          · have hhead := ResponseHead.parsed_of_granted hgranted
            rw [hhead] at hsend
            rw [handshakeLegs_of_granted _ _ hsend, gatewayHeads, List.map_nil, List.nil_append,
              hhead]
            exact .of_granted hrest
          · rw [handshakeLegs_of_unanswered _ _ hsend]
            exact .of_unanswered
  | cons response responses ih =>
      cases left with
      | zero => exact .of_no_legs
      | succ left =>
          have hbytes := hincoming.trans (gatewayBytes_cons response responses granted tunnel)
          have hheads : gatewayHeads (response :: responses) granted =
              response.head.parsed :: gatewayHeads responses granted := rfl
          obtain ⟨after, ⟨hrest, -, hsend⟩ | ⟨-, halt, hsend⟩⟩ :=
            sendLeg_reads dst auth (reused && leg == 0) response.head hbytes
          · rw [handshakeLegs_of_answered _ _ (hrefused response List.mem_cons_self) hsend, hheads]
            split
            next => exact .of_answered
            next hdrained =>
              split
              next => exact .of_answered
              next hstatus =>
                -- an answered 407: its body has been taken exactly
                have hstatus : response.head.status = 407 := not_not.mp hstatus
                obtain ⟨-, -, hconsumed⟩ := (Response.drain407_reads hstatus
                  (hsmall response List.mem_cons_self)
                  (hdrain response List.mem_cons_self hstatus) hrest).of_ok hdrained
                split
                next => exact .of_answered
                next =>
                  apply ReadsInOrder.cons
                  exact ih (fun other hmem => hrefused other (List.mem_cons_of_mem _ hmem))
                    (fun other hmem => hsmall other (List.mem_cons_of_mem _ hmem))
                    (fun other hmem => hdrain other (List.mem_cons_of_mem _ hmem)) _ _ _ _
                    (hconsumed.incoming_eq hrest)
          · rw [handshakeLegs_of_unanswered _ _ hsend]
            exact .of_unanswered

/-- Nothing about the response exceeds a limit of the wire helpers. -/
def Response.WithinLimits (response : Response) : Prop :=
  lineLimit response.head.encode ∧ (response.head.status = 407 → response.DrainLimit)

/-- The exchange has the legs and the verdict of the conversation. -/
structure Follows (exchange : Exchange Socket) (ideal : Exchange (List Head)) : Prop where
  legs : exchange.legs = ideal.legs
  granted : exchange.result = .ok () ↔ ideal.result = .ok ()

theorem Follows.cons {exchange : Exchange Socket} {ideal : Exchange (List Head)}
    (h : Follows exchange ideal) (leg : Leg) : Follows (exchange.cons leg) (ideal.cons leg) :=
  ⟨congrArg (leg :: ·) h.legs, h.granted⟩

theorem accepting_of_writes_tail {before after : Socket} (haccepting : before.Accepting)
    (hwrites : after.writes = before.writes.tail) : after.Accepting := by
  intro outcome hmem
  rw [hwrites] at hmem
  exact haccepting outcome (List.mem_of_mem_tail hmem)

/-- With no write refused and no limit exceeded, the wire handshake is the
conversation with the gateway's heads. -/
theorem handshakeLegs_follows (hgranted : granted.status = 200) (hlimit : lineLimit granted.encode)
    {responses : List Response}
    (hrefused : ∀ response ∈ responses, response.head.status ≠ 200)
    (hsmall : ∀ response ∈ responses, response.body.size ≤ maxDrainBytes)
    (hdrain : ∀ response ∈ responses, response.head.status = 407 → response.Drainable)
    (hlimits : ∀ response ∈ responses, response.WithinLimits)
    (left leg : Nat) (authState : AuthState σ) (auth : Option Text) {socket : Socket}
    (haccepting : socket.Accepting)
    (hincoming : socket.incoming = gatewayBytes responses granted tunnel) :
    Follows (handshakeLegs base64 authenticator (wireTransport dst) reused left leg authState
        auth socket)
      (handshakeLegs base64 authenticator messageTransport reused left leg authState auth
        (gatewayHeads responses granted)) := by
  induction responses generalizing left leg authState auth socket with
  | nil =>
      cases left with
      | zero => exact ⟨rfl, Iff.rfl⟩
      | succ left =>
          obtain ⟨after, ⟨-, -, hsend⟩ | ⟨hnot, -⟩⟩ :=
            sendLeg_reads dst auth (reused && leg == 0) granted
              (by simpa [gatewayBytes] using hincoming)
          · have hhead := ResponseHead.parsed_of_granted hgranted
            have hideal : gatewayHeads [] granted = [(200, granted.headers)] := by
              rw [← hhead]
              rfl
            rw [hhead] at hsend
            rw [handshakeLegs_of_granted _ _ hsend, hideal, handshakeLegs_of_granted _ _ rfl]
            exact ⟨rfl, Iff.rfl⟩
          · exact absurd ⟨haccepting, hlimit⟩ hnot
  | cons response responses ih =>
      cases left with
      | zero => exact ⟨rfl, Iff.rfl⟩
      | succ left =>
          have hbytes := hincoming.trans (gatewayBytes_cons response responses granted tunnel)
          have hstatus200 := hrefused response List.mem_cons_self
          obtain ⟨hheadLimit, hdrainLimit⟩ := hlimits response List.mem_cons_self
          obtain ⟨after, ⟨hrest, hwrites, hsend⟩ | ⟨hnot, -⟩⟩ :=
            sendLeg_reads dst auth (reused && leg == 0) response.head hbytes
          · have hnext : messageTransport.sendLeg auth (reused && leg == 0)
                (gatewayHeads (response :: responses) granted) =
                  (.ok (response.head.status, response.head.headers),
                    gatewayHeads responses granted) := rfl
            rw [handshakeLegs_of_answered _ _ hstatus200 hsend,
              handshakeLegs_of_answered _ _ hstatus200 hnext]
            simp only [messageTransport]
            by_cases hstatus : response.head.status = 407
            · obtain ⟨drained, hdrained, hconsumed⟩ := (Response.drain407_reads hstatus
                (hsmall response List.mem_cons_self)
                (hdrain response List.mem_cons_self hstatus) hrest).exists_ok (hdrainLimit hstatus)
              rw [show (wireTransport dst).drainBody response.head.headers after =
                (.ok (), drained) from hdrained]
              simp only [hstatus, ne_eq, not_true_eq_false, if_false]
              split
              next => exact ⟨rfl, by simp⟩
              next =>
                apply Follows.cons
                exact ih (fun other hmem => hrefused other (List.mem_cons_of_mem _ hmem))
                  (fun other hmem => hsmall other (List.mem_cons_of_mem _ hmem))
                  (fun other hmem => hdrain other (List.mem_cons_of_mem _ hmem))
                  (fun other hmem => hlimits other (List.mem_cons_of_mem _ hmem)) _ _ _ _
                  (accepting_of_writes_tail haccepting (hconsumed.writes.trans hwrites))
                  (hconsumed.incoming_eq hrest)
            · -- a refusal ends the handshake whatever its body does
              simp only [ne_eq, hstatus, not_false_eq_true, if_true]
              split
              next => exact ⟨rfl, by simp⟩
              next => exact ⟨rfl, by simp⟩
          · exact absurd ⟨haccepting, hheadLimit⟩ hnot

end

/-! ## A sample gateway -/

def offerField : Field :=
  ⟨"Proxy-Authenticate".toList, ascii " Negotiate".toList, by decide, by decide, by decide⟩

def tokenField : Field :=
  ⟨"proxy-authenticate".toList, ascii "Negotiate AQ==".toList, by decide, by decide, by decide⟩

def chunkedField : Field :=
  ⟨"Transfer-Encoding".toList, ascii " chunked".toList, by decide, by decide, by decide⟩

def lengthField : Field :=
  ⟨"Content-Length".toList, ascii " 0005\t".toList, by decide, by decide, by decide⟩

def traceField : Field := ⟨"X-Trace".toList, ascii "1".toList, by decide, by decide, by decide⟩

def grantedHead : ResponseHead :=
  ⟨200, ascii "Connection established".toList, [], by decide, by decide⟩

/-- A 407 with a chunked body of one extended chunk. -/
def chunkedChallenge (trailers : List Field) : Response where
  head := ⟨407, ascii "Proxy Authentication Required".toList,
    [offerField, chunkedField], by decide, by decide⟩
  body := .chunked
    [⟨⟨"04".toList, 4, some ⟨[32], ascii "pad=\"\"".toList, by decide, by decide⟩, by decide, rfl⟩,
      ascii "no\r\n".toList, by decide, rfl⟩]
    ⟨⟨"000".toList, 0, none, by decide, rfl⟩, rfl⟩ trailers
  framed := ⟨"chunked".toList, by decide, by decide⟩

/-- A 407 that continues the handshake, with a body of a given length. -/
def sizedChallenge : Response where
  head := ⟨407, [], [tokenField, lengthField], by decide, by decide⟩
  body := .sized (ascii "\r\n\r\nx".toList)
  framed := ⟨by decide, "0005".toList, by decide, by decide, by decide⟩

def sampleSocket (responses : List Response) : Socket :=
  ⟨gatewayBytes responses grantedHead [1, 2, 3], [], .silent, [], []⟩

def sampleTarget : Text := "example.com:443".toList

theorem drainable_chunkedChallenge : (chunkedChallenge []).Drainable := by
  have hlength : contentLength (chunkedChallenge []).head.headers = none := by decide +kernel
  unfold Response.Drainable
  rw [hlength]
  exact ⟨by decide +kernel, rfl⟩

theorem drainable_sizedChallenge : sizedChallenge.Drainable := by
  have hlength : contentLength sizedChallenge.head.headers = some 5 := by decide +kernel
  unfold Response.Drainable
  rw [hlength]
  rfl

end Zicade.Upstream
