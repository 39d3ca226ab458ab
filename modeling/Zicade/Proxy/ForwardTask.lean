import Zicade.Proxy.ConnectTask
import Zicade.Proxy.Forwarded
import Zicade.Proxy.Server

/-! # A plain request from its head to the end of its response

The bodies are counted frame by frame as they pass. Towards an origin the request's body is
handed to the client connection's own task, which may still read it when the response is
there; through an upstream it is collected first. The request is answered once.
-/

namespace Zicade.Proxy

open Zicade.Foundation Zicade.Auth Zicade.Net Zicade.Upstream Zicade.App Zicade.Schema

/-- The bytes of some frames. -/
def dataOf (frames : List Frame) : Bytes := frames.flatMap fun frame => frame.dataRef.getD []

/-- A body behind the counting wrapper: what has been polled of it, and what is left. -/
structure CountedBody where
  body : BoxedBody
  passed : List Frame
  left : List Frame
  split : passed ++ left = body.frames

namespace CountedBody

def new (body : BoxedBody) : CountedBody := ⟨body, [], body.frames, rfl⟩

/-- The next frame is polled. -/
def poll : CountedBody → Option (Frame × CountedBody)
  | ⟨_, _, [], _⟩ => none
  | ⟨body, passed, frame :: left, split⟩ =>
      some (frame, ⟨body, passed ++ [frame], left, (List.append_cons ..).symm.trans split⟩)

theorem poll_eq {counted next : CountedBody} {frame : Frame}
    (hpoll : counted.poll = some (frame, next)) :
    next.body = counted.body ∧ next.passed = counted.passed ++ [frame] := by
  obtain ⟨body, passed, left, split⟩ := counted
  cases left with
  | nil => cases hpoll
  | cons first left =>
      obtain ⟨rfl, rfl⟩ := Prod.mk.inj (Option.some.inj hpoll)
      exact ⟨rfl, rfl⟩

/-- A body that has nothing left has given all its bytes. -/
theorem data_of_left {counted : CountedBody} (hleft : counted.left = []) :
    dataOf counted.passed = counted.body.data := by
  have hsplit := counted.split
  rw [hleft, List.append_nil] at hsplit
  rw [dataOf, hsplit, BoxedBody.data]

end CountedBody

/-- Who holds the request's body: the request itself, the task of the client connection to
the origin, or nobody any more. -/
inductive Holder
  | request
  | connection
  | nobody
  deriving DecidableEq, Repr

inductive ForwardPhase (σ : Type*)
  /-- PAC mode: the router has been asked. -/
  | resolving
  /-- Direct: the origin is dialed. -/
  | dialing (dialed : Text)
  /-- Direct: the request is sent, and its response awaited. -/
  | awaiting
  /-- Upstream: the body is collected. -/
  | collecting (upstream : UpstreamTarget σ)
  | handshaking (upstream : UpstreamTarget σ) (body : Bytes)
  | responding
  /-- The response was relayed, or there was none. -/
  | finished
  /-- The connection went away meanwhile. -/
  | dropped

structure ForwardTask (σ : Type*) where
  target : Text
  parts : Parts
  route : Text
  tracked : Tracked
  status : Option Nat := none
  answered : Option Nat := none
  upload : CountedBody
  holder : Holder := .request
  outbound : Option (Text × Parts) := none
  legs : List SentLeg := []
  download : Option CountedBody := none
  phase : ForwardPhase σ

inductive ForwardEvent (σ : Type*) (τ : Type)
  | resolved (choice : Except String (RouteChoice σ))
  | dialed (result : Except ForwardError Unit)
  | answered (result : Except ForwardError (Answer BoxedBody))
  | collected
  | connected (conn : Except ForwardError τ)
  /-- The request's body is polled. -/
  | bodyFrame
  /-- The client connection's task is done with the request's body. -/
  | bodyLetGo
  /-- The response's body is polled. -/
  | relayed
  | responded
  | dropped

/-- What can refuse a request: the routing, the dial, the answer or the body. -/
def ForwardEvent.canRefuse {σ : Type*} {τ : Type} : ForwardEvent σ τ → Bool
  | .resolved _ | .dialed _ | .answered _ | .collected | .connected _ => true
  | _ => false

/-- What becomes of a request. -/
inductive Service (σ : Type*)
  | badRequest
  | connect (task : ConnectTask σ)
  | forward (task : ForwardTask σ)

namespace ForwardTask

/-- What has been relayed of the response's body. -/
def relayed {σ : Type*} (task : ForwardTask σ) : List Frame :=
  (task.download.map CountedBody.passed).getD []

section

variable {σ : Type*}

/-- The entry fails, and the client is answered 502; a body that was not handed over goes. -/
def refuse (task : ForwardTask σ) (reason : String) : ForwardTask σ :=
  { task with
    answered := some 502
    tracked := task.tracked.fail reason
    holder := if task.holder = .request then .nobody else task.holder
    phase := .finished }

/-- The head of the response goes to the client: `set_status`, and the body is counted. -/
def respond (task : ForwardTask σ) (answer : Answer BoxedBody) : ForwardTask σ :=
  { task with
    answered := some answer.status
    status := some answer.status
    tracked := task.tracked.setOpen
    download := some (.new answer.body)
    phase := .responding }

variable (http : HttpCrate) (uri : AuthorityCrate)

/-- `forward_http` up to its first await. -/
def forwardHttp (task : ForwardTask σ) : ForwardTask σ :=
  match authorityTarget uri task.parts.uri with
  | none => task.refuse "request missing host authority"
  | some dialed => { task with phase := .dialing dialed }

/-- The entry is there before anything is asked or dialed. -/
def begin {ρ : Type*} (routing : Netmon.Routing (UpstreamTarget σ) ρ) (target : Text)
    (parts : Parts) (body : BoxedBody) (metrics : Metrics) : ForwardTask σ :=
  let task : ForwardTask σ :=
    { target, parts, route := ConnectTask.routeLabel routing, tracked := .start metrics
      upload := .new body, phase := .resolving }
  match routing with
  | .direct => task.forwardHttp uri
  | .upstream upstream => { task with phase := .collecting upstream }
  | .pac _ => task

/-- `proxy_service` up to its first await. -/
def serviceOf {ρ : Type*} (routing : Netmon.Routing (UpstreamTarget σ) ρ) (parts : Parts)
    (body : BoxedBody) (metrics : Metrics) : Service σ :=
  match authorityTarget uri parts.uri with
  | none => .badRequest
  | some target =>
      if parts.method = connectMethod then .connect (ConnectTask.begin routing target metrics)
      else .forward (begin uri routing target parts body metrics)

variable (base64 : Base64) (authenticator : Authenticator σ) {τ : Type}
  (sender : HttpSender τ BoxedBody) (display : ForwardError → String)

def step (task : ForwardTask σ) (event : ForwardEvent σ τ) : Option (ForwardTask σ) :=
  match task.phase, event with
  | .resolving, .resolved (.ok .direct) =>
      some ({ task with route := ConnectTask.directLabel }.forwardHttp uri)
  | .resolving, .resolved (.ok (.upstream upstream)) =>
      some { task with route := upstream.addr, phase := .collecting upstream }
  | .resolving, .resolved (.error message) => some (task.refuse message)
  | .dialing dialed, .dialed (.ok ()) =>
      some { task with
        outbound := some (dialed, toOriginForm http uri.toUriCrate task.parts)
        holder := .connection
        phase := .awaiting }
  | .dialing _, .dialed (.error err) => some (task.refuse (display err))
  | .awaiting, .answered (.ok answer) => some (task.respond answer)
  | .awaiting, .answered (.error err) => some (task.refuse (display err))
  | .collecting upstream, .collected =>
      if task.upload.left ≠ [] then none
      else match task.upload.body.ending with
        | .ok () =>
            some { task with
              holder := .nobody, phase := .handshaking upstream (dataOf task.upload.passed) }
        | .error err => some (task.refuse (display err))
  | .handshaking upstream body, .connected (.ok stream) =>
      let run := forwardHandshakeOver http base64 authenticator task.parts body sender
        upstream.auth stream
      match run.result with
      | .ok answer => some ({ task with legs := run.legs }.respond answer.1)
      | .error err => some ({ task with legs := run.legs }.refuse (display err))
  | .handshaking _ _, .connected (.error err) => some (task.refuse (display err))
  | phase, .bodyFrame =>
      match task.holder, phase with
      | .connection, _ | .request, .collecting _ =>
          task.upload.poll.map fun next =>
            { task with tracked := countFrame .up task.tracked next.1, upload := next.2 }
      | _, _ => none
  | _, .bodyLetGo =>
      if task.holder = .connection then some { task with holder := .nobody } else none
  | .responding, .relayed =>
      match task.download with
      | none => none
      | some download =>
          download.poll.map fun next =>
            { task with
              tracked := countFrame .down task.tracked next.1, download := some next.2 }
  | .responding, .responded => some { task with phase := .finished }
  | .finished, .dropped => none
  | .dropped, .dropped => none
  | _, .dropped =>
      some { task with
        holder := if task.holder = .request then .nobody else task.holder, phase := .dropped }
  | _, _ => none

/-- What a plain request can do in one step. -/
inductive Steps (task : ForwardTask σ) : ForwardEvent σ τ → ForwardTask σ → Prop
  | routedDirect (hphase : task.phase = .resolving) :
      Steps task (.resolved (.ok .direct))
        ({ task with route := ConnectTask.directLabel }.forwardHttp uri)
  | routed (upstream : UpstreamTarget σ) (hphase : task.phase = .resolving) :
      Steps task (.resolved (.ok (.upstream upstream)))
        { task with route := upstream.addr, phase := .collecting upstream }
  | refused (event : ForwardEvent σ τ) (reason : String) (hevent : event.canRefuse = true)
      (hphase : task.phase = .resolving ∨ (∃ dialed, task.phase = .dialing dialed) ∨
        task.phase = .awaiting ∨ (∃ upstream, task.phase = .collecting upstream) ∨
        ∃ upstream body, task.phase = .handshaking upstream body) :
      Steps task event (task.refuse reason)
  | reached (dialed : Text) (hphase : task.phase = .dialing dialed) :
      Steps task (.dialed (.ok ())) { task with
        outbound := some (dialed, toOriginForm http uri.toUriCrate task.parts)
        holder := .connection
        phase := .awaiting }
  | originAnswered (answer : Answer BoxedBody) (hphase : task.phase = .awaiting) :
      Steps task (.answered (.ok answer)) (task.respond answer)
  | collected (upstream : UpstreamTarget σ) (hphase : task.phase = .collecting upstream)
      (hleft : task.upload.left = []) :
      Steps task .collected { task with
        holder := .nobody, phase := .handshaking upstream (dataOf task.upload.passed) }
  | upstreamAnswered (upstream : UpstreamTarget σ) (body : Bytes) (stream : τ)
      (answer : Answer BoxedBody) (count : Nat) (hphase : task.phase = .handshaking upstream body)
      (hok : (forwardHandshakeOver http base64 authenticator task.parts body sender upstream.auth
        stream).result = .ok (answer, count)) :
      Steps task (.connected (.ok stream))
        ({ task with legs := (forwardHandshakeOver http base64 authenticator task.parts body sender
            upstream.auth stream).legs }.respond answer)
  | upstreamFailed (upstream : UpstreamTarget σ) (body : Bytes) (stream : τ) (reason : String)
      (hphase : task.phase = .handshaking upstream body) :
      Steps task (.connected (.ok stream))
        ({ task with legs := (forwardHandshakeOver http base64 authenticator task.parts body sender
            upstream.auth stream).legs }.refuse reason)
  | bodyFrame (frame : Frame) (next : CountedBody)
      (hholder : task.holder = .connection ∨
        (task.holder = .request ∧ ∃ upstream, task.phase = .collecting upstream))
      (hpoll : task.upload.poll = some (frame, next)) :
      Steps task .bodyFrame
        { task with tracked := countFrame .up task.tracked frame, upload := next }
  | bodyLetGo (hholder : task.holder = .connection) :
      Steps task .bodyLetGo { task with holder := .nobody }
  | relayed (download next : CountedBody) (frame : Frame) (hphase : task.phase = .responding)
      (hdownload : task.download = some download) (hpoll : download.poll = some (frame, next)) :
      Steps task .relayed
        { task with tracked := countFrame .down task.tracked frame, download := some next }
  | responded (hphase : task.phase = .responding) :
      Steps task .responded { task with phase := .finished }
  | dropped (hfinished : task.phase ≠ .finished) (hdropped : task.phase ≠ .dropped) :
      Steps task .dropped { task with
        holder := if task.holder = .request then .nobody else task.holder, phase := .dropped }

variable {http uri base64 authenticator sender display}

theorem step_cases {task next : ForwardTask σ} {event : ForwardEvent σ τ}
    (hstep : task.step http uri base64 authenticator sender display event = some next) :
    task.Steps http uri base64 authenticator sender event next := by
  unfold step at hstep
  split at hstep
  next hphase => exact Option.some.inj hstep ▸ .routedDirect hphase
  next upstream hphase => exact Option.some.inj hstep ▸ .routed upstream hphase
  next message hphase => exact Option.some.inj hstep ▸ .refused _ _ rfl (.inl hphase)
  next dialed hphase => exact Option.some.inj hstep ▸ .reached dialed hphase
  next dialed err hphase =>
    exact Option.some.inj hstep ▸ .refused _ _ rfl (.inr (.inl ⟨dialed, hphase⟩))
  next answer hphase => exact Option.some.inj hstep ▸ .originAnswered answer hphase
  next err hphase => exact Option.some.inj hstep ▸ .refused _ _ rfl (.inr (.inr (.inl hphase)))
  next upstream hphase =>
    split at hstep
    next => cases hstep
    next hleft =>
      split at hstep
      next => exact Option.some.inj hstep ▸ .collected upstream hphase (not_not.mp hleft)
      next err herror =>
        exact Option.some.inj hstep ▸
          .refused _ _ rfl (.inr (.inr (.inr (.inl ⟨upstream, hphase⟩))))
  next upstream body stream hphase =>
    dsimp only at hstep
    split at hstep
    next answer hok =>
      exact Option.some.inj hstep ▸
        .upstreamAnswered upstream body stream answer.1 answer.2 hphase hok
    next err herror =>
      exact Option.some.inj hstep ▸ .upstreamFailed upstream body stream _ hphase
  next upstream body err hphase =>
    exact Option.some.inj hstep ▸
      .refused _ _ rfl (.inr (.inr (.inr (.inr ⟨upstream, body, hphase⟩))))
  next =>
    split at hstep
    next hholder =>
      obtain ⟨polled, hpoll, hsame⟩ := Option.map_eq_some_iff.mp hstep
      exact hsame ▸ .bodyFrame polled.1 polled.2 (.inl hholder) hpoll
    next upstream hholder hphase =>
      obtain ⟨polled, hpoll, hsame⟩ := Option.map_eq_some_iff.mp hstep
      exact hsame ▸ .bodyFrame polled.1 polled.2 (.inr ⟨hholder, upstream, hphase⟩) hpoll
    next => cases hstep
  next =>
    split at hstep
    next hholder => exact Option.some.inj hstep ▸ .bodyLetGo hholder
    next => cases hstep
  next hphase =>
    split at hstep
    next => cases hstep
    next download hdownload =>
      obtain ⟨polled, hpoll, hsame⟩ := Option.map_eq_some_iff.mp hstep
      exact hsame ▸ .relayed download polled.2 polled.1 hphase hdownload hpoll
  next hphase => exact Option.some.inj hstep ▸ .responded hphase
  next => cases hstep
  next => cases hstep
  next hfinished hdropped => exact Option.some.inj hstep ▸ .dropped hfinished hdropped
  next => cases hstep

end

end ForwardTask

/-! ## The entry and the totals -/

/-- A tracked entry has counted so many bytes, and the totals have followed it. -/
structure Counted (metrics : Metrics) (up down : Nat) (tracked : Tracked) : Prop where
  entryUp : tracked.entry.up = up
  entryDown : tracked.entry.down = down
  bytesOut : tracked.metrics.bytesOut = metrics.bytesOut + up
  bytesIn : tracked.metrics.bytesIn = metrics.bytesIn + down
  once : tracked.metrics.failedRequests =
    metrics.failedRequests + if tracked.entry.failed then 1 else 0

section

variable {metrics : Metrics} {up down : Nat} {tracked : Tracked}

theorem counted_start (metrics : Metrics) : Counted metrics 0 0 (.start metrics) :=
  ⟨rfl, rfl, rfl, rfl, rfl⟩

theorem Counted.addUp (hcounted : Counted metrics up down tracked) (n : Nat) :
    Counted metrics (up + n) down (tracked.addUp n) := by
  obtain ⟨hup, hdown, hout, hin, honce⟩ := hcounted
  refine ⟨congrArg (· + n) hup, hdown, ?_, hin, honce⟩
  rw [← Nat.add_assoc, ← hout]
  rfl

theorem Counted.addDown (hcounted : Counted metrics up down tracked) (n : Nat) :
    Counted metrics up (down + n) (tracked.addDown n) := by
  obtain ⟨hup, hdown, hout, hin, honce⟩ := hcounted
  refine ⟨hup, congrArg (· + n) hdown, hout, ?_, honce⟩
  rw [← Nat.add_assoc, ← hin]
  rfl

/-- A first failure is counted once. -/
theorem Counted.fail (hcounted : Counted metrics up down tracked)
    (hfresh : tracked.entry.failed = false) (reason : String) :
    Counted metrics up down (tracked.fail reason) := by
  obtain ⟨hup, hdown, hout, hin, honce⟩ := hcounted
  rw [hfresh] at honce
  rw [Tracked.fail, hfresh]
  exact ⟨hup, hdown, hout, hin, congrArg (· + 1) honce⟩

theorem Counted.setOpen (hcounted : Counted metrics up down tracked) :
    Counted metrics up down tracked.setOpen := by
  obtain ⟨hup, hdown, hout, hin, honce⟩ := hcounted
  unfold Tracked.setOpen
  split
  next => exact ⟨hup, hdown, hout, hin, honce⟩
  next => exact ⟨hup, hdown, hout, hin, honce⟩

/-- A counted frame moves its own counter and its own total. -/
theorem countFrame_eq (flow : Flow) (tracked : Tracked) (frame : Frame) :
    countFrame flow tracked frame = match flow with
      | .up => tracked.addUp (frame.dataRef.getD []).length
      | .down => tracked.addDown (frame.dataRef.getD []).length := by
  cases flow <;> cases frame <;> rfl

theorem length_dataOf_concat (frames : List Frame) (frame : Frame) :
    (dataOf (frames ++ [frame])).length =
      (dataOf frames).length + (frame.dataRef.getD []).length := by
  rw [dataOf, List.flatMap_append, List.flatMap_singleton, List.length_append, dataOf]

end

namespace ForwardTask

section

variable {σ : Type*} {metrics : Metrics} {task : ForwardTask σ}

/-- The entry has counted what has passed of both bodies. -/
def Books (metrics : Metrics) (task : ForwardTask σ) : Prop :=
  Counted metrics (dataOf task.upload.passed).length (dataOf task.relayed).length task.tracked

/-- Nothing has come back yet, so the entry has neither failed nor a status; its route may be set,
and the upload counts. -/
structure Untouched (task : ForwardTask σ) : Prop where
  status : task.status = none
  download : task.download = none
  failed : task.tracked.entry.failed = false
  state : task.tracked.entry.state = .connecting

theorem Books.uploaded (hbooks : task.Books metrics) {frame : Frame} {next : CountedBody}
    (hpoll : task.upload.poll = some (frame, next)) :
    Books metrics { task with tracked := countFrame .up task.tracked frame, upload := next } := by
  rw [Books]
  dsimp only
  rw [(CountedBody.poll_eq hpoll).2, length_dataOf_concat, countFrame_eq]
  exact hbooks.addUp _

theorem Books.downloaded (hbooks : task.Books metrics) {download next : CountedBody}
    {frame : Frame} (hdownload : task.download = some download)
    (hpoll : download.poll = some (frame, next)) :
    Books metrics
      { task with tracked := countFrame .down task.tracked frame, download := some next } := by
  rw [Books, relayed, hdownload, Option.map_some, Option.getD_some] at hbooks
  rw [Books, relayed]
  dsimp only
  rw [Option.map_some, Option.getD_some, (CountedBody.poll_eq hpoll).2, length_dataOf_concat,
    countFrame_eq]
  exact hbooks.addDown _

theorem Books.refuse (hbooks : task.Books metrics) (hfresh : task.tracked.entry.failed = false)
    (reason : String) : (task.refuse reason).Books metrics :=
  Counted.fail hbooks hfresh reason

/-- The head of a response counts nothing. -/
theorem Books.respond (hbooks : task.Books metrics) (hnone : task.download = none)
    (answer : Answer BoxedBody) : (task.respond answer).Books metrics := by
  rw [Books, relayed, hnone] at hbooks
  exact Counted.setOpen hbooks

end

/-! ## One answer -/

section

variable {σ : Type*} (http : HttpCrate) (uri : AuthorityCrate) (base64 : Base64)
  (authenticator : Authenticator σ) {τ : Type} (sender : HttpSender τ BoxedBody)
  (parts : Parts) (body : BoxedBody) (metrics : Metrics)

/-- The response came from the origin, or from an upstream that was sent the whole body and
answered anything but a challenge. -/
inductive Answers (past : List (ForwardEvent σ τ)) (answer : Answer BoxedBody) : Prop
  | origin (hanswered : .answered (.ok answer) ∈ past)
  | upstream (upstream : UpstreamTarget σ) (stream : τ) (count : Nat)
      (hconnected : .connected (.ok stream) ∈ past)
      (hok : (forwardHandshakeOver http base64 authenticator parts body.data sender upstream.auth
        stream).result = .ok (answer, count))

/-- What the client was told is what the entry says. -/
inductive Decided (past : List (ForwardEvent σ τ)) (task : ForwardTask σ) (status : Nat) : Prop
  | refused (hstatus : status = 502) (hfailed : task.tracked.entry.failed = true)
      (hnone : task.status = none) (hdownload : task.download = none)
  | responded (answer : Answer BoxedBody) (download : CountedBody)
      (hanswers : Answers http base64 authenticator sender parts body past answer)
      (hstatus : status = answer.status) (hkept : task.status = some answer.status)
      (hfailed : task.tracked.entry.failed = false) (hopen : task.tracked.entry.state = .open)
      (hdownload : task.download = some download) (hbody : download.body = answer.body)

/-- Where the request went: nowhere yet, to the origin its entry names, in origin form, or
through an upstream, on every leg with the whole of its body. -/
inductive Went (task : ForwardTask σ) : Prop
  | nowhere (hout : task.outbound = none) (hlegs : task.legs = [])
  | origin (hroute : task.route = ConnectTask.directLabel)
      (hout : task.outbound = some (task.target, toOriginForm http uri.toUriCrate parts))
      (hlegs : task.legs = [])
  | upstream (upstream : UpstreamTarget σ) (hroute : task.route = upstream.addr)
      (hout : task.outbound = none)
      (hresends : Resends http base64 authenticator parts body.data
        (AuthState.new upstream.auth).initialHeader.2 (AuthState.new upstream.auth).initialHeader.1
        task.legs)

/-- Each phase knows where the request is headed. -/
def Headed (task : ForwardTask σ) : Prop :=
  match task.phase with
  | .resolving => task.answered = none ∧ task.outbound = none ∧ task.legs = []
  | .dialing dialed => task.answered = none ∧ dialed = task.target ∧
      task.route = ConnectTask.directLabel ∧ task.outbound = none ∧ task.legs = []
  | .awaiting => task.answered = none ∧ task.route = ConnectTask.directLabel ∧
      task.outbound = some (task.target, toOriginForm http uri.toUriCrate parts) ∧ task.legs = []
  | .collecting upstream => task.answered = none ∧ task.route = upstream.addr ∧
      task.outbound = none ∧ task.legs = []
  | .handshaking upstream bytes => task.answered = none ∧ bytes = body.data ∧
      task.route = upstream.addr ∧ task.outbound = none ∧ task.legs = []
  | .responding | .finished | .dropped =>
      task.Went http uri base64 authenticator parts body

/-- What holds of a plain request while it is served. -/
structure Sound (target : Text) (past : List (ForwardEvent σ τ)) (task : ForwardTask σ) :
    Prop where
  parts_eq : task.parts = parts
  body_eq : task.upload.body = body
  target_eq : task.target = target
  books : task.Books metrics
  decided : match task.answered with
    | none => task.Untouched
    | some status => task.Decided http base64 authenticator sender parts body past status
  headed : task.Headed http uri base64 authenticator parts body

variable {http uri base64 authenticator sender parts body metrics}

theorem Answers.later {past : List (ForwardEvent σ τ)} {answer : Answer BoxedBody}
    (hanswers : Answers http base64 authenticator sender parts body past answer)
    (event : ForwardEvent σ τ) :
    Answers http base64 authenticator sender parts body (past ++ [event]) answer := by
  cases hanswers with
  | origin hanswered => exact .origin (List.mem_append_left _ hanswered)
  | upstream upstream stream count hconnected hok =>
      exact .upstream upstream stream count (List.mem_append_left _ hconnected) hok

/-- An answer is decided on once, and what follows does not change it. -/
theorem Decided.later {past : List (ForwardEvent σ τ)} {task next : ForwardTask σ}
    {status : Nat}
    (hdecided : task.Decided http base64 authenticator sender parts body past status)
    (event : ForwardEvent σ τ) (hstatus : next.status = task.status)
    (hfailed : next.tracked.entry.failed = task.tracked.entry.failed)
    (hstate : next.tracked.entry.state = task.tracked.entry.state)
    (hdownload : next.download.map CountedBody.body = task.download.map CountedBody.body) :
    next.Decided http base64 authenticator sender parts body (past ++ [event]) status := by
  cases hdecided with
  | refused hrefused hfail hnone hempty =>
      rw [hempty, Option.map_none, Option.map_eq_none_iff] at hdownload
      exact .refused hrefused (hfailed.trans hfail) (hstatus.trans hnone) hdownload
  | responded answer download hanswers hanswer hkept hfail hopen hsome hbody =>
      rw [hsome, Option.map_some, Option.map_eq_some_iff] at hdownload
      obtain ⟨after, hafter, hsame⟩ := hdownload
      exact .responded answer after (hanswers.later event) hanswer (hstatus.trans hkept)
        (hfailed.trans hfail) (hstate.trans hopen) hafter (hsame.trans hbody)

/-- A request is refused while nothing has come back. -/
theorem decided_refuse {past : List (ForwardEvent σ τ)} {task : ForwardTask σ}
    (huntouched : task.Untouched) (reason : String) :
    (task.refuse reason).Decided http base64 authenticator sender parts body past 502 := by
  refine .refused rfl ?_ huntouched.status huntouched.download
  exact (Tracked.fail_of_not_failed reason huntouched.failed).1

theorem decided_respond {past : List (ForwardEvent σ τ)} {task : ForwardTask σ}
    (huntouched : task.Untouched) {answer : Answer BoxedBody}
    (hanswers : Answers http base64 authenticator sender parts body past answer) :
    (task.respond answer).Decided http base64 authenticator sender parts body past
      answer.status := by
  refine .responded answer (.new answer.body) hanswers rfl rfl ?_ ?_ rfl rfl
  · exact (task.tracked.setOpen_failed).trans huntouched.failed
  · unfold respond Tracked.setOpen
    rw [if_pos huntouched.state]

variable {target : Text} {past : List (ForwardEvent σ τ)} {task next : ForwardTask σ}
  {event : ForwardEvent σ τ}

/-- While it is not answered, nothing has come back. -/
theorem Sound.untouched
    (hsound : task.Sound http uri base64 authenticator sender parts body metrics target past)
    (hnone : task.answered = none) : task.Untouched := by
  have hdecided := hsound.decided
  rw [hnone] at hdecided
  exact hdecided

/-- It is where it was before. -/
theorem Went.same (hwent : task.Went http uri base64 authenticator parts body)
    (hroute : next.route = task.route) (htarget : next.target = task.target)
    (hout : next.outbound = task.outbound) (hlegs : next.legs = task.legs) :
    next.Went http uri base64 authenticator parts body := by
  cases hwent with
  | nowhere hnone hempty => exact .nowhere (hout.trans hnone) (hlegs.trans hempty)
  | origin hdirect hsent hempty =>
      exact .origin (hroute.trans hdirect) (by rw [hout, htarget]; exact hsent)
        (hlegs.trans hempty)
  | upstream upstream haddr hnone hresends =>
      exact .upstream upstream (hroute.trans haddr) (hout.trans hnone) (hlegs ▸ hresends)

/-- A refusal after which the request has gone where it was headed. -/
theorem Sound.refuse
    (hsound : task.Sound http uri base64 authenticator sender parts body metrics target past)
    (hnone : task.answered = none) (legs : List SentLeg)
    (hwent : Went http uri base64 authenticator parts body { task with legs })
    (event : ForwardEvent σ τ) (reason : String) :
    Sound http uri base64 authenticator sender parts body metrics target (past ++ [event])
      ({ task with legs }.refuse reason) := by
  have huntouched := hsound.untouched hnone
  have hfresh : Untouched { task with legs } :=
    ⟨huntouched.status, huntouched.download, huntouched.failed, huntouched.state⟩
  exact ⟨hsound.parts_eq, hsound.body_eq, hsound.target_eq,
    hsound.books.refuse huntouched.failed reason, decided_refuse hfresh reason,
    hwent.same rfl rfl rfl rfl⟩

theorem Sound.respond
    (hsound : task.Sound http uri base64 authenticator sender parts body metrics target past)
    (hnone : task.answered = none) (legs : List SentLeg)
    (hwent : Went http uri base64 authenticator parts body { task with legs })
    (event : ForwardEvent σ τ) {answer : Answer BoxedBody}
    (hanswers : Answers http base64 authenticator sender parts body (past ++ [event]) answer) :
    Sound http uri base64 authenticator sender parts body metrics target (past ++ [event])
      ({ task with legs }.respond answer) := by
  have huntouched := hsound.untouched hnone
  have hfresh : Untouched { task with legs } :=
    ⟨huntouched.status, huntouched.download, huntouched.failed, huntouched.state⟩
  exact ⟨hsound.parts_eq, hsound.body_eq, hsound.target_eq,
    hsound.books.respond huntouched.download answer, decided_respond hfresh hanswers,
    hwent.same rfl rfl rfl rfl⟩

/-- An event that leaves the answer as it is. -/
theorem Sound.moves
    (hsound : task.Sound http uri base64 authenticator sender parts body metrics target past)
    (event : ForwardEvent σ τ) (hparts : next.parts = task.parts)
    (hbody : next.upload.body = task.upload.body) (htarget : next.target = task.target)
    (hanswered : next.answered = task.answered) (hstatus : next.status = task.status)
    (hfailed : next.tracked.entry.failed = task.tracked.entry.failed)
    (hstate : next.tracked.entry.state = task.tracked.entry.state)
    (hdownload : next.download.map CountedBody.body = task.download.map CountedBody.body)
    (hbooks : next.Books metrics) (hheaded : next.Headed http uri base64 authenticator parts body) :
    next.Sound http uri base64 authenticator sender parts body metrics target
      (past ++ [event]) := by
  refine ⟨hparts.trans hsound.parts_eq, hbody.trans hsound.body_eq,
    htarget.trans hsound.target_eq, hbooks, ?_, hheaded⟩
  have hdecided := hsound.decided
  rw [hanswered]
  cases hanswer : task.answered with
  | none =>
      rw [hanswer] at hdecided
      obtain ⟨hnone, hempty, hfresh, hconnecting⟩ := hdecided
      rw [hempty, Option.map_none, Option.map_eq_none_iff] at hdownload
      exact ⟨hstatus.trans hnone, hdownload, hfailed.trans hfresh, hstate.trans hconnecting⟩
  | some status =>
      rw [hanswer] at hdecided
      exact hdecided.later event hstatus hfailed hstate hdownload

/-- Where a request is headed it has gone. -/
theorem Headed.went (hheaded : task.Headed http uri base64 authenticator parts body) :
    task.Went http uri base64 authenticator parts body := by
  unfold Headed at hheaded
  split at hheaded
  next => exact .nowhere hheaded.2.1 hheaded.2.2
  next => exact .nowhere hheaded.2.2.2.1 hheaded.2.2.2.2
  next => exact .origin hheaded.2.1 hheaded.2.2.1 hheaded.2.2.2
  next => exact .nowhere hheaded.2.2.1 hheaded.2.2.2
  next => exact .nowhere hheaded.2.2.2.1 hheaded.2.2.2.2
  next => exact hheaded
  next => exact hheaded
  next => exact hheaded

/-- It is headed where it was before. -/
theorem Headed.same (hheaded : task.Headed http uri base64 authenticator parts body)
    (hphase : next.phase = task.phase) (hanswered : next.answered = task.answered)
    (hroute : next.route = task.route) (htarget : next.target = task.target)
    (hout : next.outbound = task.outbound) (hlegs : next.legs = task.legs) :
    next.Headed http uri base64 authenticator parts body := by
  have hwent := hheaded.went.same hroute htarget hout hlegs
  unfold Headed at hheaded ⊢
  rw [hphase, hanswered, hroute, htarget, hout, hlegs]
  cases hcase : task.phase with
  | responding => exact hwent
  | finished => exact hwent
  | dropped => exact hwent
  | _ =>
      rw [hcase] at hheaded
      exact hheaded

theorem handshake_resends (auth : UpstreamAuth σ) (stream : τ) :
    Resends http base64 authenticator parts body.data (AuthState.new auth).initialHeader.2
      (AuthState.new auth).initialHeader.1
      (forwardHandshakeOver http base64 authenticator parts body.data sender auth stream).legs :=
  forwardFrom_resends sender maxLegs (auth.turn stream)

/-- The origin that is dialed is the one of the entry. -/
theorem forwardHttp_eq {task : ForwardTask σ}
    (hauthority : authorityTarget uri task.parts.uri = some task.target) :
    task.forwardHttp uri = { task with phase := .dialing task.target } := by
  rw [forwardHttp, hauthority]

theorem sound_step (hauthority : authorityTarget uri parts.uri = some target)
    (hsound : task.Sound http uri base64 authenticator sender parts body metrics target past)
    (hstep : task.Steps http uri base64 authenticator sender event next) :
    next.Sound http uri base64 authenticator sender parts body metrics target
      (past ++ [event]) := by
  have hheaded := hsound.headed
  have hwent := hheaded.went
  unfold Headed at hheaded
  cases hstep with
  | routedDirect hphase =>
      rw [hphase] at hheaded
      rw [← hsound.parts_eq, ← hsound.target_eq] at hauthority
      have hdials : forwardHttp uri { task with route := ConnectTask.directLabel } =
          { task with route := ConnectTask.directLabel, phase := .dialing task.target } :=
        forwardHttp_eq hauthority
      rw [hdials]
      exact hsound.moves _ rfl rfl rfl rfl rfl rfl rfl rfl hsound.books
        ⟨hheaded.1, rfl, rfl, hheaded.2⟩
  | routed upstream hphase =>
      rw [hphase] at hheaded
      exact hsound.moves _ rfl rfl rfl rfl rfl rfl rfl rfl hsound.books
        ⟨hheaded.1, rfl, hheaded.2⟩
  | refused _ reason hevent hphase =>
      have hnone : task.answered = none := by
        rcases hphase with hphase | ⟨dialed, hphase⟩ | hphase | ⟨upstream, hphase⟩ |
          ⟨upstream, bytes, hphase⟩ <;> rw [hphase] at hheaded <;> exact hheaded.1
      exact hsound.refuse hnone task.legs hwent event reason
  | reached dialed hphase =>
      rw [hphase] at hheaded
      obtain ⟨hnone, hdialed, hroute, -, hlegs⟩ := hheaded
      refine hsound.moves _ rfl rfl rfl rfl rfl rfl rfl rfl hsound.books
        ⟨hnone, hroute, ?_, hlegs⟩
      dsimp only
      rw [hdialed, hsound.parts_eq]
  | originAnswered answer hphase =>
      rw [hphase] at hheaded
      exact hsound.respond hheaded.1 task.legs hwent _ (.origin (by simp))
  | collected upstream hphase hleft =>
      rw [hphase] at hheaded
      refine hsound.moves _ rfl rfl rfl rfl rfl rfl rfl rfl hsound.books
        ⟨hheaded.1, ?_, hheaded.2⟩
      rw [CountedBody.data_of_left hleft, hsound.body_eq]
  | upstreamAnswered upstream bytes stream answer count hphase hok =>
      rw [hphase] at hheaded
      obtain ⟨hnone, rfl, hroute, hout, -⟩ := hheaded
      obtain rfl : task.parts = parts := hsound.parts_eq
      have hsent : Went http uri base64 authenticator task.parts body { task with
          legs := (forwardHandshakeOver http base64 authenticator task.parts body.data sender
            upstream.auth stream).legs } :=
        .upstream upstream hroute hout (handshake_resends upstream.auth stream)
      exact hsound.respond hnone _ hsent (.connected (.ok stream))
        (.upstream upstream stream count (by simp) hok)
  | upstreamFailed upstream bytes stream reason hphase =>
      rw [hphase] at hheaded
      obtain ⟨hnone, rfl, hroute, hout, -⟩ := hheaded
      obtain rfl : task.parts = parts := hsound.parts_eq
      have hsent : Went http uri base64 authenticator task.parts body { task with
          legs := (forwardHandshakeOver http base64 authenticator task.parts body.data sender
            upstream.auth stream).legs } :=
        .upstream upstream hroute hout (handshake_resends upstream.auth stream)
      exact hsound.refuse hnone _ hsent (.connected (.ok stream)) reason
  | bodyFrame frame after hholder hpoll =>
      refine hsound.moves _ rfl (CountedBody.poll_eq hpoll).1 rfl rfl rfl ?_ ?_ rfl
        (hsound.books.uploaded hpoll) (hsound.headed.same rfl rfl rfl rfl rfl rfl)
      · rw [countFrame_eq]
        rfl
      · rw [countFrame_eq]
        rfl
  | bodyLetGo hholder =>
      exact hsound.moves _ rfl rfl rfl rfl rfl rfl rfl rfl hsound.books
        (hsound.headed.same rfl rfl rfl rfl rfl rfl)
  | relayed download after frame hphase hdownload hpoll =>
      rw [hphase] at hheaded
      refine hsound.moves _ rfl rfl rfl rfl rfl ?_ ?_ ?_
        (hsound.books.downloaded hdownload hpoll) ?_
      · rw [countFrame_eq]
        rfl
      · rw [countFrame_eq]
        rfl
      · dsimp only
        rw [hdownload, Option.map_some, Option.map_some, (CountedBody.poll_eq hpoll).1]
      · unfold Headed
        dsimp only
        rw [hphase]
        exact hwent.same rfl rfl rfl rfl
  | responded hphase =>
      exact hsound.moves _ rfl rfl rfl rfl rfl rfl rfl rfl hsound.books
        (hwent.same rfl rfl rfl rfl)
  | dropped hfinished hdropped =>
      exact hsound.moves _ rfl rfl rfl rfl rfl rfl rfl rfl hsound.books
        (hwent.same rfl rfl rfl rfl)

theorem sound_begin {ρ : Type*} (routing : Netmon.Routing (UpstreamTarget σ) ρ)
    (hauthority : authorityTarget uri parts.uri = some target) :
    (begin uri routing target parts body metrics).Sound http uri base64 authenticator sender parts
      body metrics target [] := by
  have hbooks : Counted metrics (dataOf (CountedBody.new body).passed).length (dataOf []).length
      (.start metrics) := counted_start metrics
  cases routing with
  | direct =>
      have hdials : begin uri (.direct : Netmon.Routing (UpstreamTarget σ) ρ) target parts body
          metrics = { target, parts, route := ConnectTask.directLabel, tracked := .start metrics,
                      upload := .new body, phase := .dialing target } :=
        forwardHttp_eq hauthority
      rw [hdials]
      exact ⟨rfl, rfl, rfl, hbooks, ⟨rfl, rfl, rfl, rfl⟩, rfl, rfl, rfl, rfl, rfl⟩
  | upstream upstream =>
      exact ⟨rfl, rfl, rfl, hbooks, ⟨rfl, rfl, rfl, rfl⟩, rfl, rfl, rfl, rfl⟩
  | pac router => exact ⟨rfl, rfl, rfl, hbooks, ⟨rfl, rfl, rfl, rfl⟩, rfl, rfl, rfl⟩

end

/-! ## What a plain request comes to -/

/-- A plain request is accounted for: the bytes its entry and the totals have counted are
those that have passed of its body and of the response; it is answered once, by a 502 that
fails the entry or by the response itself; and what was sent is the client's request. -/
structure Accounts {σ : Type*} {τ : Type} (http : HttpCrate) (uri : AuthorityCrate)
    (base64 : Base64) (authenticator : Authenticator σ) (sender : HttpSender τ BoxedBody)
    (parts : Parts) (body : BoxedBody) (metrics : Metrics) (past : List (ForwardEvent σ τ))
    (task : ForwardTask σ) : Prop where
  target : authorityTarget uri parts.uri = some task.target
  uploaded : task.upload.passed <+: body.frames
  counted : Counted metrics (dataOf task.upload.passed).length (dataOf task.relayed).length
    task.tracked
  unanswered : task.answered = none → task.Untouched
  answered : ∀ status, task.answered = some status →
    task.Decided http base64 authenticator sender parts body past status
  sent : task.Went http uri base64 authenticator parts body

section

variable {σ : Type*} {http : HttpCrate} {uri : AuthorityCrate} {base64 : Base64}
  {authenticator : Authenticator σ} {τ : Type} {sender : HttpSender τ BoxedBody}
  {display : ForwardError → String} {parts : Parts} {body : BoxedBody} {metrics : Metrics}

theorem begin_of_serviceOf {ρ : Type*} {routing : Netmon.Routing (UpstreamTarget σ) ρ}
    {start : ForwardTask σ} (hservice : serviceOf uri routing parts body metrics = .forward start) :
    ∃ target, authorityTarget uri parts.uri = some target ∧ parts.method ≠ connectMethod ∧
      start = begin uri routing target parts body metrics := by
  unfold serviceOf at hservice
  split at hservice
  next => cases hservice
  next target htarget =>
    split at hservice
    next => cases hservice
    next hmethod => exact ⟨target, htarget, hmethod, (Service.forward.inj hservice).symm⟩

end

/-! ## A sample request -/

def sampleBody : BoxedBody := ⟨[.data [1, 2], .trailers [], .data [3]], .ok ()⟩

/-- An upstream that answers every request with a 204 and this body. -/
def sampleSender : HttpSender Unit BoxedBody where
  ready stream := (.ok (), stream)
  sendRequest _ stream := (.ok ⟨204, [], ⟨[.data [9]], .ok ()⟩⟩, stream)
  collect _ stream := (.ok (), stream)

/-- The body is collected and sent through the upstream, and the response is relayed. -/
def sampleForward : List (ForwardEvent Nat Unit) :=
  [.resolved (.ok (.upstream ConnectTask.sampleUpstream)), .bodyFrame, .bodyFrame, .bodyFrame,
    .collected, .connected (.ok ()), .relayed, .responded]

end ForwardTask

end Zicade.Proxy
