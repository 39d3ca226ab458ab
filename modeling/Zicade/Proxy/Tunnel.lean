import Zicade.Proxy.Splice
import Zicade.Proxy.Target
import Zicade.Upstream.Conversation
import Zicade.Upstream.Granted

/-! # A tunnel on its sockets

The pumps start on sockets that were used before: the far one may have carried a whole
handshake, and the client's a head. What they then find on them, and what they take off
them in which order, is settled by the sockets.
-/

namespace Zicade.Proxy

open Zicade.Foundation Zicade.Auth Zicade.Net Zicade.Upstream Zicade.App

/-! ## What a handshake sends -/

/-- The bytes that a socket was sent, of the writes that were accepted. -/
def sentBytes (socket : Socket) : Bytes := socket.log.flatMap fun event =>
  match event with
  | .wrote bytes .accepted => bytes
  | _ => []

/-- Reading sends nothing. -/
theorem sentBytes_of_consumed {before after : Socket} {bytes : Bytes}
    (hconsumed : Consumed before after bytes) : sentBytes after = sentBytes before := by
  obtain ⟨reads, hlog, -⟩ := hconsumed.log
  rw [sentBytes, hlog, List.flatMap_append, ← sentBytes]
  simp [List.flatMap_map]

theorem sentBytes_peeked (socket : Socket) :
    sentBytes { socket with log := socket.log ++ [.peeked] } = sentBytes socket := by
  simp [sentBytes]

theorem sentBytes_awaited {socket awaited : Socket}
    (hawait : awaitResponse socket = (.ok (), awaited)) :
    sentBytes awaited = sentBytes socket := by
  have hpeek : sentBytes (peek socket).2 = sentBytes socket := by
    rcases peek_cases socket with ⟨-, hpeek⟩ | ⟨-, hsame⟩
    · rw [hpeek]
      exact sentBytes_peeked socket
    · rw [hsame]
  rw [awaitResponse, Wire.bind_apply] at hawait
  split at hawait
  next count peeked heq =>
    rw [heq] at hpeek
    split at hawait
    next => cases (Prod.mk.inj hawait).1
    next => exact (Prod.mk.inj hawait).2 ▸ hpeek
  next => cases (Prod.mk.inj hawait).1

theorem writeAll_ok {bytes : Bytes} {socket after : Socket}
    (hok : writeAll bytes socket = (.ok (), after)) :
    sentBytes after = sentBytes socket ++ bytes := by
  unfold writeAll at hok
  split at hok
  next hwrite =>
    rw [← (Prod.mk.inj hok).2, sentBytes, Socket.wrote, hwrite, List.flatMap_append, ← sentBytes]
    simp
  next => cases (Prod.mk.inj hok).1
  next => cases (Prod.mk.inj hok).1

/-- A leg that is answered sent its head, and nothing else. -/
theorem sendLeg_sent {dst : Text} {auth : Option Text} {firstReused : Bool}
    {socket after : Socket} {head : Head}
    (hok : sendLeg dst auth firstReused socket = (.ok head, after)) :
    sentBytes after = sentBytes socket ++ asBytes (connectRequest dst auth) := by
  rw [sendLeg, Wire.bind_apply] at hok
  split at hok
  next written hwrite =>
    have hsent := writeAll_ok (ok_of_mapErr hwrite)
    cases firstReused with
    | false =>
        obtain ⟨bytes, hconsumed, -⟩ := readHead_ok (ok_of_mapErr hok)
        rw [sentBytes_of_consumed hconsumed, hsent]
    | true =>
        rw [if_pos rfl, Wire.bind_apply] at hok
        split at hok
        next awaited hawait =>
          obtain ⟨bytes, hconsumed, -⟩ := readHead_ok (ok_of_mapErr hok)
          rw [sentBytes_of_consumed hconsumed, sentBytes_awaited (ok_of_mapErr hawait), hsent]
        next => cases (Prod.mk.inj hok).1
  next => cases (Prod.mk.inj hok).1

section

variable {σ : Type*} (base64 : Base64) (authenticator : Authenticator σ) (dst : Text)
  (reused : Bool)

/-- The heads of a handshake, leg by leg. -/
def connectHeads (legs : List Leg) : Bytes :=
  legs.flatMap fun leg => asBytes (connectRequest dst leg.auth)

/-- A handshake that is granted sent the heads of its legs, and nothing else. -/
theorem handshakeLegs_sent {left leg : Nat} {authState : AuthState σ} {auth : Option Text}
    {socket : Socket} (hgranted : (handshakeLegs base64 authenticator (wireTransport dst) reused
      left leg authState auth socket).result = .ok ()) :
    sentBytes (handshakeLegs base64 authenticator (wireTransport dst) reused left leg authState
        auth socket).stream =
      sentBytes socket ++ connectHeads dst (handshakeLegs base64 authenticator (wireTransport dst)
        reused left leg authState auth socket).legs := by
  induction left generalizing leg authState auth socket with
  | zero => cases hgranted
  | succ left ih =>
      cases handshakeRound base64 authenticator (wireTransport dst) reused leg authState auth
        socket with
      | unanswered halt after hsend hround =>
          rw [hround] at hgranted
          cases hgranted
      | granted headers after hsend hround =>
          rw [hround, sendLeg_sent hsend]
          simp [connectHeads]
      | refused status headers after halt hsend hstatus hfresh hround =>
          rw [hround] at hgranted
          cases hgranted
      | answered headers after drained value next hsend hdrain hanswer hround =>
          -- draining the 407 sends nothing, and the rest of the legs go on from there
          have hdrained := sentBytes_of_consumed (drainBody_takes headers after).consumed
          have hresult : drainBody headers after = (.ok (), drained) := hdrain
          rw [hresult] at hdrained
          rw [hround] at hgranted ⊢
          simp only [Exchange.cons, connectHeads, List.flatMap_cons] at hgranted ⊢
          rw [ih hgranted, hdrained, sendLeg_sent hsend, List.append_assoc]
          rfl

end

/-! ## Connecting through an upstream -/

/-- What an upstream sends that answers as HTTP has it: challenges and other answers, each
with its body, the head that grants the tunnel, and what it relays from then on. -/
structure Gateway where
  responses : List Response
  granted : ResponseHead
  tunnel : Bytes
  grants : granted.status = 200
  refuses : ∀ response ∈ responses, response.head.status ≠ 200
  small : ∀ response ∈ responses, response.body.size ≤ maxDrainBytes
  drainable : ∀ response ∈ responses, response.head.status = 407 → response.Drainable

def Gateway.bytes (gateway : Gateway) : Bytes :=
  gatewayBytes gateway.responses gateway.granted gateway.tunnel

section

variable {σ : Type*} (base64 : Base64) (authenticator : Authenticator σ)

def handshakeTimedOut (addr : Text) : IoError :=
  ⟨.timedOut, s!"upstream CONNECT handshake with {String.ofList addr} timed out after 15s"⟩

/-- `connect_via_upstream`: `inTime` is whether the connect is over before its time is, which
one that waits for ever is not. -/
def connectViaUpstream (target : UpstreamTarget σ) (dst : Text) (take : Option Socket)
    (dial : Except (Halt IoError) Socket) (inTime : Bool) : Except IoError Socket :=
  let taken := target.pool.bind fun _ => take
  match inTime, (connect base64 authenticator target.auth dst taken dial).result with
  | true, .ok socket => .ok socket
  | true, .error (.err err) => .error err
  | _, _ => .error (handshakeTimedOut target.addr)

/-- A tunnel was granted by a handshake on the socket of the pool or on the dialed one. -/
theorem connectViaUpstream_ok {target : UpstreamTarget σ} {dst : Text} {take : Option Socket}
    {dial : Except (Halt IoError) Socket} {inTime : Bool} {peer : Socket}
    (hok : connectViaUpstream base64 authenticator target dst take dial inTime = .ok peer) :
    ∃ socket reused, (take = some socket ∨ dial = .ok socket) ∧
      (handshake base64 authenticator reused target.auth dst socket).result = .ok () ∧
      (handshake base64 authenticator reused target.auth dst socket).stream = peer := by
  have hresult : (connect base64 authenticator target.auth dst (target.pool.bind fun _ => take)
      dial).result = .ok peer := by
    unfold connectViaUpstream at hok
    dsimp only at hok
    split at hok
    next socket heq => rw [heq, Except.ok.inj hok]
    next => cases hok
    next => cases hok
  have hexchange : ∀ exchange : Exchange Socket, exchange.intoIo = .ok peer →
      exchange.result = .ok () ∧ exchange.stream = peer := by
    intro exchange hinto
    unfold Exchange.intoIo at hinto
    split at hinto
    next heq => exact ⟨heq, Except.ok.inj hinto⟩
    next => cases hinto
  have hfresh : (connectFresh base64 authenticator target.auth dst dial).result = .ok peer →
      ∃ socket, dial = .ok socket ∧
        (handshake base64 authenticator false target.auth dst socket).result = .ok () ∧
        (handshake base64 authenticator false target.auth dst socket).stream = peer := by
    intro hfresh
    unfold connectFresh at hfresh
    split at hfresh
    next => cases hfresh
    next socket => exact ⟨socket, rfl, hexchange _ hfresh⟩
  unfold connect at hresult
  split at hresult
  next =>
    obtain ⟨socket, hdial, hhandshake⟩ := hfresh hresult
    exact ⟨socket, false, .inr hdial, hhandshake⟩
  next socket htaken =>
    obtain ⟨-, -, htake⟩ := Option.bind_eq_some_iff.mp htaken
    dsimp only at hresult
    split at hresult
    next =>
      obtain ⟨fresh, hdial, hhandshake⟩ := hfresh hresult
      exact ⟨fresh, false, .inr hdial, hhandshake⟩
    next => exact ⟨socket, true, .inl htake, hexchange _ hresult⟩

/-- What is left on the stream is what the gateway relays, from its first byte on. -/
theorem Gateway.incoming_of_granted (gateway : Gateway) {reused : Bool} {auth : UpstreamAuth σ}
    {dst : Text} {socket : Socket} (hspeaks : socket.incoming = gateway.bytes)
    (hgranted : (handshake base64 authenticator reused auth dst socket).result = .ok ()) :
    (handshake base64 authenticator reused auth dst socket).stream.incoming = gateway.tunnel :=
  ((handshakeLegs_readsInOrder base64 authenticator dst reused gateway.grants gateway.refuses
    gateway.small gateway.drainable _ _ _ _ hspeaks).granted hgranted).2

end

/-! ## The pumps on their sockets -/

/-- What a pump has counted: the chunks that its sink has taken whole. -/
def Pump.Counts (pump : Pump) : Prop :=
  match pump.phase with
  | .reading => pump.counter = pump.accepted.length
  | .writing chunk rest => pump.counter + chunk = pump.accepted.length + rest.length ∧
      rest.length ≤ chunk
  | .settled (.ok ()) => pump.counter = pump.accepted.length
  | .settled (.error _) => pump.counter ≤ pump.accepted.length

theorem Pump.Counts.le {pump : Pump} (hcounts : pump.Counts) :
    pump.counter ≤ pump.accepted.length := by
  unfold Counts at hcounts
  split at hcounts <;> omega

theorem Pump.step_counts {pump : Pump} {event : PumpEvent} {moved : Pump × Nat}
    (hcounts : pump.Counts) (hstep : pump.step event = some moved) :
    moved.1.Counts ∧ moved.1.counter = pump.counter + moved.2 := by
  have hle := hcounts.le
  unfold Counts at hcounts
  cases Pump.step_effect hstep with
  | chunk bytes hreading =>
      rw [hreading] at hcounts
      exact ⟨⟨by simpa using hcounts, le_rfl⟩, rfl⟩
  | eof hreading =>
      rw [hreading] at hcounts
      exact ⟨hcounts, rfl⟩
  | readError err hreading => exact ⟨hle, rfl⟩
  | tookAll chunk rest hwriting hrest =>
      rw [hwriting] at hcounts
      refine ⟨?_, rfl⟩
      simp only [Counts, List.length_append]
      exact hcounts.1
  | tookSome chunk n rest hwriting hn =>
      rw [hwriting] at hcounts
      refine ⟨?_, rfl⟩
      simp only [Counts, List.length_append, List.length_take, List.length_drop]
      omega
  | writeFailed event err hfails => exact ⟨hle, rfl⟩

/-- A splice, and what its two sources have not been read of. -/
structure Streams where
  splice : Splice
  unread : Direction → Bytes

/-- What each direction has to carry: the bytes of the client, and those of the far side. -/
def sources (client peer : Bytes) : Direction → Bytes
  | .clientToUpstream => client
  | .upstreamToClient => peer

/-- The bytes an event reads in a direction. -/
def SpliceEvent.reads (direction : Direction) : SpliceEvent → Bytes
  | .pump other (.chunk bytes) => if other = direction then bytes else []
  | _ => []

/-- The same bytes are counted, in the entry and in the totals. -/
structure Tracked.SameBytes (first second : Tracked) : Prop where
  up : second.entry.up = first.entry.up
  down : second.entry.down = first.entry.down
  bytesIn : second.metrics.bytesIn = first.metrics.bytesIn
  bytesOut : second.metrics.bytesOut = first.metrics.bytesOut

theorem Tracked.SameBytes.refl (tracked : Tracked) : tracked.SameBytes tracked :=
  ⟨rfl, rfl, rfl, rfl⟩

theorem Tracked.sameBytes_fail (tracked : Tracked) (reason : String) :
    tracked.SameBytes (tracked.fail reason) := by
  unfold fail
  split
  next => exact .refl tracked
  next => exact ⟨rfl, rfl, rfl, rfl⟩

theorem Tracked.sameBytes_setOpen (tracked : Tracked) : tracked.SameBytes tracked.setOpen := by
  unfold setOpen
  split
  next => exact ⟨rfl, rfl, rfl, rfl⟩
  next => exact .refl tracked

/-- Nothing but moving a pump moves a pump or counts a byte. -/
structure Splice.SameFlow (first second : Splice) : Prop where
  pumps : second.pumps = first.pumps
  bytes : first.tracked.SameBytes second.tracked

theorem Splice.sameFlow_close (splice : Splice) (c2u u2c : Outcome) :
    splice.SameFlow (splice.close c2u u2c) := by
  refine ⟨splice.close_pumps c2u u2c, ?_⟩
  unfold close
  split
  next => exact splice.tracked.sameBytes_fail _
  next => exact .refl splice.tracked

theorem Splice.sameFlow_finish (splice : Splice) (first : Direction)
    (result : Except PumpError Unit) (other : Outcome) :
    splice.SameFlow (splice.finish first result other) := by
  cases first with
  | clientToUpstream => exact splice.sameFlow_close _ _
  | upstreamToClient => exact splice.sameFlow_close _ _

theorem Splice.sameFlow_firstSettled (splice : Splice) (first : Direction)
    (result : Except PumpError Unit) : splice.SameFlow (splice.firstSettled first result) := by
  unfold firstSettled
  split
  next => exact splice.sameFlow_finish _ _ _
  next => exact ⟨rfl, .refl splice.tracked⟩
  next => exact ⟨rfl, .refl splice.tracked⟩

theorem Pump.step_received {pump : Pump} {event : PumpEvent} {moved : Pump × Nat}
    (hstep : pump.step event = some moved) :
    moved.1.received = pump.received ++
      match event with
      | .chunk bytes => bytes
      | _ => [] := by
  cases Pump.step_effect hstep with
  | chunk bytes hreading => rfl
  | eof hreading => simp
  | readError err hreading => simp
  | tookAll chunk rest hwriting hrest => simp
  | tookSome chunk n rest hwriting hn => simp
  | writeFailed event err hfails =>
      cases event with
      | chunk bytes => cases hfails
      | _ => simp

/-- An event moves the pump it is for, counts what that relayed, and no more. -/
theorem Splice.step_flow {splice next : Splice} {event : SpliceEvent}
    (hstep : splice.step event = some next) :
    (∃ direction pumped moved, event = .pump direction pumped ∧
      (splice.pumps direction).step pumped = some moved ∧
      (splice.advance direction moved).SameFlow next) ∨
      (event = .graceExpired ∧ splice.SameFlow next) := by
  unfold Splice.step at hstep
  split at hstep
  next direction pumped hphase =>
    obtain ⟨moved, hpump, hnext⟩ := Option.map_eq_some_iff.mp hstep
    refine .inl ⟨direction, pumped, moved, rfl, hpump, ?_⟩
    split at hnext
    next => exact hnext ▸ Splice.sameFlow_firstSettled _ _ _
    next => exact hnext ▸ ⟨rfl, .refl _⟩
  next direction pumped hphase =>
    split at hstep
    next => cases hstep
    next =>
      obtain ⟨moved, hpump, hnext⟩ := Option.map_eq_some_iff.mp hstep
      refine .inl ⟨direction, pumped, moved, rfl, hpump, ?_⟩
      split at hnext
      next => exact hnext ▸ Splice.sameFlow_finish _ _ _ _
      next => exact hnext ▸ ⟨rfl, .refl _⟩
  next => exact .inr ⟨rfl, Option.some.inj hstep ▸ Splice.sameFlow_finish _ _ _ _⟩
  next => cases hstep

theorem Splice.step_received {splice next : Splice} {event : SpliceEvent}
    (hstep : splice.step event = some next) (direction : Direction) :
    (next.pumps direction).received =
      (splice.pumps direction).received ++ event.reads direction := by
  rcases Splice.step_flow hstep with ⟨other, pumped, moved, rfl, hpump, hflow⟩ | ⟨rfl, hflow⟩
  · rw [hflow.pumps, Splice.advance_pumps]
    by_cases hother : other = direction
    · subst hother
      rw [Function.update_self, Pump.step_received hpump]
      cases pumped <;> simp [SpliceEvent.reads]
    · rw [Function.update_of_ne (Ne.symm hother)]
      cases pumped <;> simp [SpliceEvent.reads, hother]
  · rw [hflow.pumps]
    simp [SpliceEvent.reads]

/-- What a sink has taken is the front of what was read. -/
theorem Pump.step_front {past : List PumpEvent} {pump : Pump} {event : PumpEvent}
    {moved : Pump × Nat} (hrelays : pump.Relays past) (hfront : pump.accepted <+: pump.received)
    (hstep : pump.step event = some moved) : moved.1.accepted <+: moved.1.received := by
  cases Pump.step_effect hstep with
  | chunk bytes hreading => exact hfront.trans (List.prefix_append _ _)
  | eof hreading => exact hfront
  | readError err hreading => exact hfront
  | tookAll chunk rest hwriting hrest =>
      exact ⟨[], by rw [List.append_nil]; exact hrelays.writing chunk rest hwriting⟩
  | tookSome chunk n rest hwriting hn =>
      dsimp only
      rw [← hrelays.writing chunk rest hwriting]
      exact (List.prefix_append_right_inj _).mpr (List.take_prefix n rest)
  | writeFailed event err hfails => exact hfront

/-- The entry and the totals have what the pumps have counted. -/
structure Splice.Counted (begun : Tracked) (splice : Splice) : Prop where
  up : splice.tracked.entry.up = begun.entry.up + (splice.pumps .clientToUpstream).counter
  down : splice.tracked.entry.down = begun.entry.down + (splice.pumps .upstreamToClient).counter
  bytesIn : splice.tracked.metrics.bytesIn =
    begun.metrics.bytesIn + (splice.pumps .upstreamToClient).counter
  bytesOut : splice.tracked.metrics.bytesOut =
    begun.metrics.bytesOut + (splice.pumps .clientToUpstream).counter

theorem Splice.Counted.same {begun : Tracked} {splice next : Splice}
    (hcounted : splice.Counted begun) (hflow : splice.SameFlow next) : next.Counted begun := by
  obtain ⟨hpumps, hup, hdown, hin, hout⟩ := hflow
  refine ⟨?_, ?_, ?_, ?_⟩
  · rw [hup, hpumps, hcounted.up]
  · rw [hdown, hpumps, hcounted.down]
  · rw [hin, hpumps, hcounted.bytesIn]
  · rw [hout, hpumps, hcounted.bytesOut]

theorem Splice.Counted.advance {begun : Tracked} {splice : Splice} {direction : Direction}
    {moved : Pump × Nat} (hcounted : splice.Counted begun)
    (hcounter : moved.1.counter = (splice.pumps direction).counter + moved.2) :
    (splice.advance direction moved).Counted begun := by
  obtain ⟨hup, hdown, hin, hout⟩ := hcounted
  cases direction with
  | clientToUpstream =>
      constructor <;> simp [Splice.advance, Tracked.addUp, *] <;> omega
  | upstreamToClient =>
      constructor <;> simp [Splice.advance, Tracked.addDown, *] <;> omega

namespace Streams

def start (tracked : Tracked) (client peer : Bytes) : Streams :=
  { splice := .start tracked, unread := sources client peer }

/-- A read gives the next bytes of its source, and the end only after all of them. -/
def step (streams : Streams) (event : SpliceEvent) : Option Streams :=
  match event with
  | .pump direction (.chunk bytes) =>
      if bytes <+: streams.unread direction then
        (streams.splice.step event).map fun splice =>
          { splice, unread := Function.update streams.unread direction
              ((streams.unread direction).drop bytes.length) }
      else none
  | .pump direction .eof =>
      if streams.unread direction = [] then
        (streams.splice.step event).map fun splice => { streams with splice }
      else none
  | event => (streams.splice.step event).map fun splice => { streams with splice }

/-- What one event does to the sources, besides the step of the splice. -/
theorem step_cases {streams next : Streams} {event : SpliceEvent}
    (hstep : streams.step event = some next) :
    streams.splice.step event = some next.splice ∧
      (∀ direction, event.reads direction ++ next.unread direction = streams.unread direction) ∧
      ∀ direction, event = .pump direction .eof → streams.unread direction = [] := by
  unfold step at hstep
  split at hstep
  next direction bytes =>
    split at hstep
    next hfront =>
      obtain ⟨splice, hsplice, rfl⟩ := Option.map_eq_some_iff.mp hstep
      refine ⟨hsplice, fun other => ?_, fun other heq => by cases heq⟩
      by_cases hother : direction = other
      · subst hother
        obtain ⟨rest, hrest⟩ := hfront
        simp [SpliceEvent.reads, ← hrest]
      · simp [SpliceEvent.reads, hother, Function.update_of_ne (Ne.symm hother)]
    next => cases hstep
  next direction =>
    split at hstep
    next hnil =>
      obtain ⟨splice, hsplice, rfl⟩ := Option.map_eq_some_iff.mp hstep
      refine ⟨hsplice, fun other => by simp [SpliceEvent.reads], fun other heq => ?_⟩
      obtain ⟨rfl, -⟩ : direction = other ∧ True := by simpa using heq
      exact hnil
    next => cases hstep
  next hchunk heof =>
    obtain ⟨splice, hsplice, rfl⟩ := Option.map_eq_some_iff.mp hstep
    refine ⟨hsplice, fun other => ?_, fun other heq => absurd heq (heof other)⟩
    cases event with
    | graceExpired => rfl
    | pump direction event =>
        cases event with
        | chunk bytes => exact absurd rfl (hchunk direction bytes)
        | _ => rfl

/-- What the pumps have done with their sources: what was read and what is left make up the
source, the end comes after all of it, what was taken is the front of what was read, and the
entry has what the pumps have counted. -/
structure Carries (begun : Tracked) (client peer : Bytes) (past : List SpliceEvent)
    (streams : Streams) : Prop where
  lawful : streams.splice.Lawful begun past
  whole : ∀ direction, (streams.splice.pumps direction).received ++ streams.unread direction =
    sources client peer direction
  ended : ∀ direction, .pump direction .eof ∈ past → streams.unread direction = []
  front : ∀ direction, (streams.splice.pumps direction).accepted <+:
    (streams.splice.pumps direction).received
  counts : ∀ direction, (streams.splice.pumps direction).Counts
  counted : streams.splice.Counted begun

variable {begun : Tracked} {client peer : Bytes} {past : List SpliceEvent}
  {streams next : Streams}

theorem carries_start (begun : Tracked) (client peer : Bytes) :
    (start begun client peer).Carries begun client peer [] where
  lawful := Splice.lawful_start begun
  whole direction := rfl
  ended direction hmem := by cases hmem
  front direction := List.prefix_rfl
  counts direction := rfl
  counted := by
    obtain ⟨hup, hdown, hin, hout⟩ := begun.sameBytes_setOpen
    exact ⟨hup, hdown, hin, hout⟩

theorem carries_step {event : SpliceEvent} (hcarries : streams.Carries begun client peer past)
    (hstep : streams.step event = some next) :
    next.Carries begun client peer (past ++ [event]) := by
  obtain ⟨hsplice, hreads, hend⟩ := step_cases hstep
  have hwhole : ∀ direction, (next.splice.pumps direction).received ++ next.unread direction =
      sources client peer direction := by
    intro direction
    rw [Splice.step_received hsplice, List.append_assoc, hreads, hcarries.whole]
  have hended : ∀ direction, .pump direction .eof ∈ past ++ [event] →
      next.unread direction = [] := by
    intro direction hmem
    have hnil : streams.unread direction = [] := by
      rcases List.mem_append.mp hmem with hmem | hmem
      · exact hcarries.ended direction hmem
      · exact hend direction (List.mem_singleton.mp hmem).symm
    have happend := hreads direction
    rw [hnil] at happend
    exact (List.append_eq_nil_iff.mp happend).2
  have hlawful := Splice.lawful_step hcarries.lawful hsplice
  rcases Splice.step_flow hsplice with ⟨moving, pumped, moved, -, hpump, hflow⟩ | ⟨-, hflow⟩
  · obtain ⟨hcounts, hcounter⟩ := Pump.step_counts (hcarries.counts moving) hpump
    have hself : next.splice.pumps moving = moved.1 := by
      rw [hflow.pumps, Splice.advance_pumps, Function.update_self]
    have hrest : ∀ other, other ≠ moving →
        next.splice.pumps other = streams.splice.pumps other := by
      intro other hother
      rw [hflow.pumps, Splice.advance_pumps, Function.update_of_ne hother]
    refine ⟨hlawful, hwhole, hended, fun direction => ?_, fun direction => ?_, ?_⟩
    · by_cases hdirection : direction = moving
      · rw [hdirection, hself]
        exact Pump.step_front (hcarries.lawful.relays moving) (hcarries.front moving) hpump
      · rw [hrest direction hdirection]
        exact hcarries.front direction
    · by_cases hdirection : direction = moving
      · rw [hdirection, hself]
        exact hcounts
      · rw [hrest direction hdirection]
        exact hcarries.counts direction
    · apply Splice.Counted.same _ hflow
      exact hcarries.counted.advance hcounter
  · refine ⟨hlawful, hwhole, hended, ?_, ?_, hcarries.counted.same hflow⟩
    · rw [hflow.pumps]
      exact hcarries.front
    · rw [hflow.pumps]
      exact hcarries.counts

/-- At any moment a sink has a prefix of the source. -/
theorem Carries.accepted_prefix (hcarries : streams.Carries begun client peer past)
    (direction : Direction) :
    (streams.splice.pumps direction).accepted <+: sources client peer direction := by
  rw [← hcarries.whole direction]
  exact (hcarries.front direction).trans (List.prefix_append _ _)

/-- A direction that counts as finished has carried its whole source. -/
theorem Carries.accepted_of_eof (hcarries : streams.Carries begun client peer past)
    {direction : Direction} (heof : (streams.splice.pumps direction).outcome = .eof) :
    (streams.splice.pumps direction).accepted = sources client peer direction := by
  obtain ⟨hmem, hsame⟩ := hcarries.lawful.ended_of_eof heof
  have hwhole := hcarries.whole direction
  rw [hcarries.ended direction hmem, List.append_nil] at hwhole
  rw [hsame, hwhole]

/-- A splice that returns without an error has finished the download. -/
theorem Carries.downloaded (hcarries : streams.Carries begun client peer past) {c2u u2c : Outcome}
    (hreturned : streams.splice.phase = .returned c2u u2c (.ok ())) :
    u2c = .eof ∧ ∀ err, c2u ≠ .failed ⟨.write, err⟩ := by
  have hclosed := hcarries.lawful.returned _ _ _ hreturned
  apply Splice.realFailure_eq_none
  · apply Splice.closeArm_ne_other
    rw [hclosed.upload, hclosed.download]
    exact hclosed.abandoned .upstreamToClient
  · cases hfailure : (closeArm c2u u2c).realFailure with
    | none => rfl
    | some failure => cases (hclosed.failure failure.1 failure.2 hfailure).1

/-- A direction that counts as finished has counted every byte it carried. -/
theorem Carries.counter_of_eof (hcarries : streams.Carries begun client peer past)
    {direction : Direction} (heof : (streams.splice.pumps direction).outcome = .eof) :
    (streams.splice.pumps direction).counter = (sources client peer direction).length := by
  have hcounts := hcarries.counts direction
  rw [Pump.Counts, Splice.settled_of_outcome_eof heof] at hcounts
  rw [hcounts, hcarries.accepted_of_eof heof]

/-- An entry that had not failed before has, once the splice has returned with an error. -/
theorem Carries.failed_iff (hcarries : streams.Carries begun client peer past)
    (hfresh : begun.entry.failed = false) :
    (streams.splice.tracked.entry.failed = true ↔
      ∃ c2u u2c err, streams.splice.phase = .returned c2u u2c (.error err)) ∧
    streams.splice.tracked.metrics.failedRequests = begun.metrics.failedRequests +
      if streams.splice.tracked.entry.failed then 1 else 0 := by
  have hunreported : streams.splice.Unreported begun →
      (∀ c2u u2c err, streams.splice.phase ≠ .returned c2u u2c (.error err)) →
      (streams.splice.tracked.entry.failed = true ↔
        ∃ c2u u2c err, streams.splice.phase = .returned c2u u2c (.error err)) ∧
      streams.splice.tracked.metrics.failedRequests = begun.metrics.failedRequests +
        if streams.splice.tracked.entry.failed then 1 else 0 := by
    rintro ⟨-, hfailed, hcounted⟩ hphase
    rw [hfailed, hfresh, hcounted]
    exact ⟨⟨fun h => (by cases h), fun ⟨c2u, u2c, err, h⟩ => absurd h (hphase c2u u2c err)⟩, rfl⟩
  cases hphase : streams.splice.phase with
  | both =>
      rw [← hphase]
      exact hunreported (hcarries.lawful.both hphase).2 (by simp [hphase])
  | waiting first result wait =>
      rw [← hphase]
      exact hunreported (hcarries.lawful.waiting _ _ _ hphase).2.2.2 (by simp [hphase])
  | returned c2u u2c result =>
      rw [← hphase]
      have hclosed := hcarries.lawful.returned _ _ _ hphase
      cases hfailure : (closeArm c2u u2c).realFailure with
      | none =>
          obtain ⟨rfl, hsame⟩ := hclosed.success hfailure
          exact hunreported hsame (by simp [hphase])
      | some failure =>
          obtain ⟨herror, hreported⟩ := hclosed.failure failure.1 failure.2 hfailure
          obtain ⟨hfailed, -, hcounted⟩ := hreported.marked hfresh
          rw [hfailed, hcounted]
          exact ⟨⟨fun _ => ⟨c2u, u2c, _, hphase.trans (by rw [herror])⟩, fun _ => rfl⟩, rfl⟩

end Streams

end Zicade.Proxy
