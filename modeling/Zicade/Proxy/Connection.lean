import Zicade.Proxy.ForwardTask

/-! # A connection and its requests

A connection serves one request after the other. The client connection of an earlier one may
still read its body, and a tunnel goes on when the connection is over. Whatever the requests
do, the connection does what the server's own model of it does.
-/

namespace Zicade.Proxy

open Zicade.Foundation Zicade.Auth Zicade.Upstream Zicade.App Zicade.Schema

/-- The mode the server knows a routing by. -/
def serverMode {Target Router : Type*} : Netmon.Routing Target Router → RoutingMode
  | .direct => .direct
  | .upstream _ => .upstream
  | .pac _ => .pac

/-- The detached client connections that hold a request's body. -/
def Holder.uploads : Holder → Nat
  | .connection => 1
  | .request => 0
  | .nobody => 0

/-- What the connection's task does with a plain request. -/
def ForwardTask.serving {σ : Type*} (task : ForwardTask σ) : ConnectionTask :=
  match task.phase with
  | .resolving => .serving (.forwarding false)
  | .dialing _ => .serving (.forwarding false)
  | .awaiting => .serving (.forwarding true)
  | .collecting _ => .serving (.forwarding false)
  | .handshaking _ _ => .serving (.forwarding false)
  | .responding => .serving .responding
  | .finished => .serving .idle
  | .dropped => .finished

/-- What the connection's task does with a `CONNECT`. -/
def ConnectTask.serving {σ : Type*} (task : ConnectTask σ) : ConnectionTask :=
  match task.phase with
  | .resolving => .serving .resolving
  | .connecting _ => .serving .dialing
  | .refused => .serving .idle
  | .upgrading _ => .serving .upgrading
  | .dialing _ => .finished
  | .relaying _ _ _ _ => .finished
  | .failed => .finished

/-- What the detached task of a `CONNECT` does. -/
def ConnectTask.tunnel {σ : Type*} (task : ConnectTask σ) : Option TunnelTask :=
  match task.phase with
  | .upgrading through => some (.awaiting through.isSome)
  | .dialing _ => some .dialing
  | .relaying _ _ _ streams =>
      match streams.splice.phase with
      | .returned _ _ _ => none
      | _ => some .relaying
  | _ => none

/-- The server's view of a connection that serves a plain request. -/
def ForwardTask.image {σ : Type*} (base : Conn) (task : ForwardTask σ) : Conn :=
  { base with task := task.serving, uploads := base.uploads + task.holder.uploads }

/-- The server's view of a connection that serves a `CONNECT`. -/
def ConnectTask.image {σ : Type*} (base : Conn) (task : ConnectTask σ) : Conn :=
  { base with task := task.serving, tunnel := task.tunnel }

/-- The server's steps that may stand for an event of a plain request. -/
def ForwardEvent.moves {σ : Type*} {τ : Type} : ForwardEvent σ τ → List (List ConnEvent)
  | .resolved _ => [[.respond false], []]
  | .dialed _ => [[.respond false], [.handOver]]
  | .answered _ => [[.respond false], [.respond true]]
  | .collected => [[.respond false], []]
  | .connected _ => [[.respond false], [.respond true]]
  | .bodyFrame => [[]]
  | .bodyLetGo => [[.letGo]]
  | .relayed => [[]]
  | .responded => [[.finishResponse]]
  | .dropped => [[.close]]

/-- The server's steps that may stand for an event of a `CONNECT`: an upgrade fails when its
connection is gone, or as it goes. -/
def ConnectEvent.moves {σ : Type*} : ConnectEvent σ → List (List ConnEvent)
  | .resolved (.ok .direct) => [[.resolved .direct]]
  | .resolved (.ok (.upstream _)) => [[.resolved .upstream]]
  | .resolved (.error _) => [[.resolved .failed]]
  | .connected _ _ _ => [[.dialed true], [.dialed false]]
  | .upgraded _ => [[.upgrade]]
  | .upgradeFailed _ => [[.upgradeFailed], [.close, .upgradeFailed]]
  | .dialed (.ok _) => [[.reach true]]
  | .dialed (.error _) => [[.reach false]]
  | .relay _ => [[], [.tunnelEnd]]

theorem run_single {State Event : Type*} {step : State → Event → Option State} {state next : State}
    {event : Event} (hstep : step state event = some next) :
    run step state [event] = some next := by
  rw [run_cons, hstep]
  rfl

namespace ForwardTask

section

variable {σ : Type*} {http : HttpCrate} {uri : AuthorityCrate} {base64 : Base64}
  {authenticator : Authenticator σ} {τ : Type} {sender : HttpSender τ BoxedBody}

/-- Until it is handed over a body is with its request, and only a direct path hands it over. -/
structure Held (mode : RoutingMode) (task : ForwardTask σ) : Prop where
  resolving : task.phase = .resolving → task.holder = .request ∧ mode ≠ .upstream
  dialing : ∀ dialed, task.phase = .dialing dialed → task.holder = .request ∧ mode ≠ .upstream
  collecting : ∀ upstream, task.phase = .collecting upstream → task.holder = .request

variable {base : Conn} {task next : ForwardTask σ} {event : ForwardEvent σ τ}

/-- A phase past the handing over. -/
theorem held_of_phase {mode : RoutingMode}
    (hphase : task.phase = .awaiting ∨ (∃ upstream body, task.phase = .handshaking upstream body) ∨
      task.phase = .responding ∨ task.phase = .finished ∨ task.phase = .dropped) :
    task.Held mode := by
  rcases hphase with hphase | ⟨upstream, body, hphase⟩ | hphase | hphase | hphase <;>
    exact ⟨by simp [hphase], by simp [hphase], by simp [hphase]⟩

/-- A task that stays in its phase and keeps its body where it is. -/
theorem Held.same {mode : RoutingMode} (hheld : task.Held mode) (hphase : next.phase = task.phase)
    (hholder : next.holder = task.holder) : next.Held mode := by
  refine ⟨?_, ?_, ?_⟩
  · rw [hphase, hholder]
    exact hheld.resolving
  · rw [hphase, hholder]
    exact hheld.dialing
  · rw [hphase, hholder]
    exact hheld.collecting

theorem held_step {mode : RoutingMode} (hheld : task.Held mode)
    (hstep : task.Steps http uri base64 authenticator sender event next) : next.Held mode := by
  cases hstep with
  | routedDirect hphase =>
      have hrequest := hheld.resolving hphase
      unfold forwardHttp
      split
      next => exact held_of_phase (.inr (.inr (.inr (.inl rfl))))
      next => exact ⟨by simp, fun _ _ => hrequest, by simp⟩
  | routed upstream hphase => exact ⟨by simp, by simp, fun _ _ => (hheld.resolving hphase).1⟩
  | refused _ reason hevent hphase => exact held_of_phase (.inr (.inr (.inr (.inl rfl))))
  | reached dialed hphase => exact held_of_phase (.inl rfl)
  | originAnswered answer hphase => exact held_of_phase (.inr (.inr (.inl rfl)))
  | collected upstream hphase hleft => exact held_of_phase (.inr (.inl ⟨_, _, rfl⟩))
  | upstreamAnswered upstream body stream answer count hphase hok =>
      exact held_of_phase (.inr (.inr (.inl rfl)))
  | upstreamFailed upstream body stream reason hphase =>
      exact held_of_phase (.inr (.inr (.inr (.inl rfl))))
  | bodyFrame frame after hholder hpoll => exact hheld.same rfl rfl
  | bodyLetGo hholder =>
      -- a body that its connection lets go of is no longer with its request
      refine ⟨fun hphase => ?_, fun dialed hphase => ?_, fun upstream hphase => ?_⟩
      · exact absurd (hholder.symm.trans (hheld.resolving hphase).1) (by decide)
      · exact absurd (hholder.symm.trans (hheld.dialing dialed hphase).1) (by decide)
      · exact absurd (hholder.symm.trans (hheld.collecting upstream hphase)) (by decide)
  | relayed download after frame hphase hdownload hpoll =>
      exact held_of_phase (.inr (.inr (.inl hphase)))
  | responded hphase => exact held_of_phase (.inr (.inr (.inr (.inl rfl))))
  | dropped hfinished hdropped => exact held_of_phase (.inr (.inr (.inr (.inr rfl))))

/-- Letting go of a body that was not handed over is no matter of the server's. -/
theorem uploads_unless_request (holder : Holder) :
    (if holder = .request then Holder.nobody else holder).uploads = holder.uploads := by
  cases holder <;> rfl

/-- A step that the server does not see. -/
theorem same_image (base : Conn) (hserving : next.serving = task.serving)
    (huploads : next.holder.uploads = task.holder.uploads) :
    run Conn.step (task.image base) [] = some (next.image base) := by
  rw [run_nil, ForwardTask.image, ForwardTask.image, hserving, huploads]

/-- A request that is answered or refused before a response is relayed. -/
theorem respond_image (base : Conn) {handed : Bool}
    (htask : task.serving = .serving (.forwarding handed)) (ok : Bool)
    (huploads : next.holder.uploads = task.holder.uploads)
    (hserving : next.serving = .serving (if ok then .responding else .idle)) :
    run Conn.step (task.image base) [.respond ok] = some (next.image base) := by
  apply run_single
  rw [ForwardTask.image, ForwardTask.image, huploads, hserving, htask]
  cases ok <;> rfl

theorem refuse_image (base : Conn) {handed : Bool}
    (htask : task.serving = .serving (.forwarding handed)) (reason : String) :
    run Conn.step (task.image base) [.respond false] = some ((task.refuse reason).image base) :=
  respond_image base htask false (uploads_unless_request task.holder) rfl

theorem refusal_mem {event : ForwardEvent σ τ} (hevent : event.canRefuse = true) :
    [.respond false] ∈ event.moves := by
  cases event <;> first | exact .head _ | cases hevent

/-- Each step of a plain request is one of its connection, or none. -/
theorem step_image (base : Conn) (hheld : task.Held base.mode)
    (hstep : task.Steps http uri base64 authenticator sender event next) :
    ∃ moves ∈ event.moves, run Conn.step (task.image base) moves = some (next.image base) := by
  cases hstep with
  | routedDirect hphase =>
      have hserving : task.serving = .serving (.forwarding false) := by rw [serving, hphase]
      unfold forwardHttp
      split
      next => exact ⟨_, .head _, refuse_image base hserving "request missing host authority"⟩
      next => exact ⟨[], .tail _ (.head _), same_image base hserving.symm rfl⟩
  | routed upstream hphase =>
      have hserving : task.serving = .serving (.forwarding false) := by rw [serving, hphase]
      exact ⟨[], .tail _ (.head _), same_image base hserving.symm rfl⟩
  | refused _ reason hevent hphase =>
      have hserving : ∃ handed, task.serving = .serving (.forwarding handed) := by
        rcases hphase with hphase | ⟨dialed, hphase⟩ | hphase | ⟨upstream, hphase⟩ |
          ⟨upstream, body, hphase⟩ <;> rw [serving, hphase] <;> exact ⟨_, rfl⟩
      obtain ⟨handed, hserving⟩ := hserving
      exact ⟨_, refusal_mem hevent, refuse_image base hserving reason⟩
  | reached dialed hphase =>
      obtain ⟨hrequest, hmode⟩ := hheld.dialing dialed hphase
      have hserving : task.serving = .serving (.forwarding false) := by rw [serving, hphase]
      refine ⟨[.handOver], .tail _ (.head _), run_single ?_⟩
      rw [ForwardTask.image, ForwardTask.image, hserving, hrequest, Conn.step, if_pos ⟨rfl, hmode⟩]
      rfl
  | originAnswered answer hphase =>
      have hserving : task.serving = .serving (.forwarding true) := by rw [serving, hphase]
      exact ⟨_, .tail _ (.head _), respond_image base hserving true rfl rfl⟩
  | collected upstream hphase hleft =>
      have hserving : task.serving = .serving (.forwarding false) := by rw [serving, hphase]
      refine ⟨[], .tail _ (.head _), same_image base hserving.symm ?_⟩
      rw [hheld.collecting upstream hphase]
      rfl
  | upstreamAnswered upstream body stream answer count hphase hok =>
      have hserving : task.serving = .serving (.forwarding false) := by rw [serving, hphase]
      exact ⟨_, .tail _ (.head _), respond_image base hserving true rfl rfl⟩
  | upstreamFailed upstream body stream reason hphase =>
      have hserving : task.serving = .serving (.forwarding false) := by rw [serving, hphase]
      exact ⟨_, .head _, respond_image base hserving false (uploads_unless_request task.holder) rfl⟩
  | bodyFrame frame after hholder hpoll => exact ⟨[], .head _, same_image base rfl rfl⟩
  | bodyLetGo hholder =>
      refine ⟨[.letGo], .head _, run_single ?_⟩
      rw [ForwardTask.image, ForwardTask.image, hholder, Conn.step]
      rfl
  | relayed download after frame hphase hdownload hpoll =>
      exact ⟨[], .head _, same_image base rfl rfl⟩
  | responded hphase =>
      have hserving : task.serving = .serving .responding := by rw [serving, hphase]
      refine ⟨[.finishResponse], .head _, run_single ?_⟩
      rw [ForwardTask.image, ForwardTask.image, hserving]
      rfl
  | dropped hfinished hdropped =>
      have hserving : task.serving.isServing = true := by
        unfold serving
        split <;> first | rfl | exact absurd ‹_› hdropped
      refine ⟨[.close], .head _, run_single ?_⟩
      rw [ForwardTask.image, ForwardTask.image, uploads_unless_request, Conn.step, if_pos hserving]
      rfl

end

end ForwardTask

namespace ConnectTask

section

variable {σ : Type*} {base64 : Base64} {authenticator : Authenticator σ}
  {task next : ConnectTask σ} {event : ConnectEvent σ}

/-- A splice that can take a step has not returned. -/
theorem tunnel_of_relayed {upstream : Option Text} {peer : Net.Socket} {client : Bytes}
    {streams after : Streams} {event : SpliceEvent}
    (hphase : task.phase = .relaying upstream peer client streams)
    (hstep : streams.step event = some after) : task.tunnel = some .relaying := by
  obtain ⟨hsplice, -, -⟩ := Streams.step_cases hstep
  rw [tunnel, hphase]
  dsimp only
  cases hsettled : streams.splice.phase with
  | returned c2u u2c result =>
      rw [Splice.step.eq_def, hsettled] at hsplice
      cases hsplice
  | both => rfl
  | waiting first result wait => rfl

/-- No task awaits an upgrade before the client is answered 200. -/
theorem tunnel_of_unanswered {work : Serving} (hserving : task.serving = .serving work)
    (hwork : work ≠ .upgrading) : task.tunnel = none := by
  unfold serving at hserving
  rw [tunnel]
  cases hphase : task.phase with
  | resolving => rfl
  | connecting target => rfl
  | refused => rfl
  | failed => rfl
  | upgrading through =>
      rw [hphase] at hserving
      exact absurd (ConnectionTask.serving.inj hserving).symm hwork
  | dialing client =>
      rw [hphase] at hserving
      cases hserving
  | relaying upstream peer client streams =>
      rw [hphase] at hserving
      cases hserving

/-- Each step of a `CONNECT` is one of its connection, or none. -/
theorem step_image (base : Conn) (hstep : task.Steps base64 authenticator event next) :
    ∃ moves ∈ event.moves, run Conn.step (task.image base) moves = some (next.image base) := by
  cases hstep with
  | routedDirect hphase =>
      refine ⟨[.resolved .direct], .head _, run_single ?_⟩
      rw [ConnectTask.image, ConnectTask.image, serving, tunnel, hphase]
      rfl
  | routed target hphase =>
      refine ⟨[.resolved .upstream], .head _, run_single ?_⟩
      rw [ConnectTask.image, ConnectTask.image, serving, tunnel, hphase]
      rfl
  | unrouted message hphase =>
      refine ⟨[.resolved .failed], .head _, run_single ?_⟩
      rw [ConnectTask.image, ConnectTask.image, serving, tunnel, hphase]
      rfl
  | granted target take dial inTime peer hphase hok =>
      refine ⟨[.dialed true], .head _, run_single ?_⟩
      rw [ConnectTask.image, ConnectTask.image, serving, tunnel, hphase]
      rfl
  | denied target take dial inTime err hphase herror =>
      refine ⟨[.dialed false], .tail _ (.head _), run_single ?_⟩
      rw [ConnectTask.image, ConnectTask.image, serving, tunnel, hphase]
      rfl
  | opened addr peer client hphase =>
      refine ⟨[.upgrade], .head _, run_single ?_⟩
      rw [ConnectTask.image, ConnectTask.image, serving, tunnel, hphase]
      rfl
  | waited client hphase =>
      refine ⟨[.upgrade], .head _, run_single ?_⟩
      rw [ConnectTask.image, ConnectTask.image, serving, tunnel, hphase]
      rfl
  | unopened through message hphase =>
      -- the connection is gone before its upgrade fails
      refine ⟨[.close, .upgradeFailed], .tail _ (.head _), ?_⟩
      rw [ConnectTask.image, ConnectTask.image, serving, tunnel, hphase]
      rfl
  | reached client peer hphase =>
      refine ⟨[.reach true], .head _, run_single ?_⟩
      rw [ConnectTask.image, ConnectTask.image, serving, tunnel, hphase]
      rfl
  | unreached client err hphase =>
      refine ⟨[.reach false], .head _, run_single ?_⟩
      rw [ConnectTask.image, ConnectTask.image, serving, tunnel, hphase]
      rfl
  | relayed upstream peer client streams after event hphase hnext =>
      have hopen := tunnel_of_relayed hphase hnext
      have hserving : task.serving = .finished := by rw [serving, hphase]
      cases hreturned : after.splice.phase with
      | returned c2u u2c result =>
          refine ⟨[.tunnelEnd], .tail _ (.head _), run_single ?_⟩
          rw [ConnectTask.image, ConnectTask.image, hopen, hserving, serving, tunnel]
          dsimp only
          rw [hreturned]
          rfl
      | both =>
          refine ⟨[], .head _, ?_⟩
          rw [run_nil, ConnectTask.image, ConnectTask.image, hopen, hserving, serving, tunnel]
          dsimp only
          rw [hreturned]
      | waiting first result wait =>
          refine ⟨[], .head _, ?_⟩
          rw [run_nil, ConnectTask.image, ConnectTask.image, hopen, hserving, serving, tunnel]
          dsimp only
          rw [hreturned]

end

end ConnectTask

/-! ## The connection -/

/-- A connection serves its current request; of the earlier ones it has the plain requests,
whose bodies may still be read. -/
structure Connection (σ : Type*) where
  earlier : List (ForwardTask σ) := []
  current : Option (Service σ) := none
  closed : Bool := false

/-- The client sends a request or goes away, and a request moves on. -/
inductive ConnectionEvent (σ : Type*) (τ : Type)
  | request (parts : Parts) (body : BoxedBody)
  | forward (event : ForwardEvent σ τ)
  | connect (event : ConnectEvent σ)
  | earlier (i : Nat) (event : ForwardEvent σ τ)
  | close

/-- The server's steps that may stand for an event of a connection; a request without an
authority is refused on the spot. -/
def ConnectionEvent.moves {σ : Type*} {τ : Type} : ConnectionEvent σ τ → List (List ConnEvent)
  | .request _ _ => [[], [.request], [.connect]]
  | .forward event => event.moves
  | .connect event => event.moves
  | .earlier _ event => event.moves
  | .close => [[.close]]

namespace Connection

section

variable {σ : Type*}

/-- The plain requests, with the current one. -/
def plain (conn : Connection σ) : List (ForwardTask σ) :=
  match conn.current with
  | some (.forward task) => conn.earlier ++ [task]
  | _ => conn.earlier

/-- What the connection's task does. -/
def serving (conn : Connection σ) : ConnectionTask :=
  if conn.closed then .finished
  else match conn.current with
    | none => .serving .idle
    | some .badRequest => .serving .idle
    | some (.forward task) => task.serving
    | some (.connect task) => task.serving

def tunnel (conn : Connection σ) : Option TunnelTask :=
  match conn.current with
  | some (.connect task) => task.tunnel
  | _ => none

/-- The detached client connections that still hold the body of one of these requests. -/
def uploadsOf (tasks : List (ForwardTask σ)) : Nat :=
  (tasks.map fun task => task.holder.uploads).sum

/-- The server's view of the connection. -/
def image (mode : RoutingMode) (conn : Connection σ) : Conn :=
  { mode, task := conn.serving, tunnel := conn.tunnel, uploads := uploadsOf conn.plain }

variable {ρ : Type*} (http : HttpCrate) (uri : AuthorityCrate) (base64 : Base64)
  (authenticator : Authenticator σ) {τ : Type} (sender : HttpSender τ BoxedBody)
  (display : ForwardError → String) (routing : Netmon.Routing (UpstreamTarget σ) ρ)
  (metrics : Metrics)

/-- The client goes away: a plain request in progress is dropped, and so is a `CONNECT` that
was not answered; the task that awaits an upgrade is told. -/
def close (conn : Connection σ) : Option (Connection σ) :=
  match conn.current with
  | none => some { conn with closed := true }
  | some .badRequest => some { conn with current := none, closed := true }
  | some (.forward task) =>
      match task.phase with
      | .finished => some { earlier := conn.earlier ++ [task], current := none, closed := true }
      | .dropped => none
      | _ => (task.step http uri base64 authenticator sender display .dropped).map fun next =>
          { earlier := conn.earlier ++ [next], current := none, closed := true }
  | some (.connect task) =>
      match task.serving with
      | .serving .upgrading => some { conn with closed := true }
      | .serving _ => some { conn with current := none, closed := true }
      | _ => none

def step (conn : Connection σ) : ConnectionEvent σ τ → Option (Connection σ)
  | .request parts body =>
      if conn.serving = .serving .idle then
        some { conn with
          earlier := conn.plain
          current := some (ForwardTask.serviceOf uri routing parts body metrics) }
      else none
  | .forward event =>
      match conn.current with
      | some (.forward task) =>
          (task.step http uri base64 authenticator sender display event).map fun next =>
            { conn with current := some (.forward next) }
      | _ => none
  | .connect event =>
      match conn.current, event with
      | some (.connect task), .upgraded client =>
          -- a connection that is gone cannot be upgraded
          if conn.closed then none
          else (task.step base64 authenticator (.upgraded client)).map fun next =>
            { conn with current := some (.connect next) }
      | some (.connect task), event =>
          (task.step base64 authenticator event).map fun next =>
            { conn with current := some (.connect next) }
      | _, _ => none
  | .earlier i event =>
      match conn.earlier[i]? with
      | some task =>
          (task.step http uri base64 authenticator sender display event).map fun next =>
            { conn with earlier := conn.earlier.set i next }
      | none => none
  | .close => if conn.closed then none else conn.close http uri base64 authenticator sender display

end

section

variable {σ : Type*} {http : HttpCrate} {uri : AuthorityCrate} {base64 : Base64}
  {authenticator : Authenticator σ} {τ : Type} {sender : HttpSender τ BoxedBody}

/-- Earlier requests were answered or dropped; the current one is the connection's while that
is not closed, and a closed one can only have left the task that awaits an upgrade. -/
structure Kept (mode : RoutingMode) (conn : Connection σ) : Prop where
  earlier : ∀ task ∈ conn.earlier, task.phase = .finished ∨ task.phase = .dropped
  forward : ∀ task, conn.current = some (.forward task) → task.Held mode ∧ conn.closed = false
  connect : conn.closed = true → ∀ task, conn.current = some (.connect task) →
    (∃ through, task.phase = .upgrading through) ∨ task.phase = .failed

theorem uploadsOf_concat (tasks : List (ForwardTask σ)) (task : ForwardTask σ) :
    uploadsOf (tasks ++ [task]) = uploadsOf tasks + task.holder.uploads := by
  simp [uploadsOf]

/-- The view of a connection that serves a plain request. -/
theorem image_forward (mode : RoutingMode) (earlier : List (ForwardTask σ))
    (task : ForwardTask σ) :
    image mode { earlier, current := some (.forward task) } =
      task.image { mode, uploads := uploadsOf earlier } := by
  rw [image, plain]
  dsimp only
  rw [uploadsOf_concat]
  rfl

/-- The view of a connection that serves a `CONNECT`. -/
theorem image_connect (mode : RoutingMode) (earlier : List (ForwardTask σ))
    (task : ConnectTask σ) :
    image mode { earlier, current := some (.connect task) } =
      task.image { mode, uploads := uploadsOf earlier } := rfl

/-- A connection that waits has no tunnel. -/
theorem tunnel_of_idle {conn : Connection σ} (hidle : conn.serving = .serving .idle) :
    conn.closed = false ∧ conn.tunnel = none := by
  unfold serving at hidle
  split at hidle
  next => cases hidle
  next hopen =>
    refine ⟨Bool.eq_false_iff.mpr hopen, ?_⟩
    unfold tunnel
    split at hidle
    next hcurrent => rw [hcurrent]
    next hcurrent => rw [hcurrent]
    next task hcurrent => rw [hcurrent]
    next task hcurrent =>
      rw [hcurrent]
      exact ConnectTask.tunnel_of_unanswered hidle (by decide)

/-- A request that was answered or dropped can only let its body be read, or let go of it. -/
theorem settled_step {task next : ForwardTask σ} {event : ForwardEvent σ τ}
    (hsettled : task.phase = .finished ∨ task.phase = .dropped)
    (hstep : task.Steps http uri base64 authenticator sender event next) :
    next.phase = task.phase ∧ ([] ∈ event.moves ∧ next.holder = task.holder ∨
      [.letGo] ∈ event.moves ∧ task.holder = .connection ∧ next.holder = .nobody) := by
  cases hstep with
  | bodyFrame frame after hholder hpoll => exact ⟨rfl, .inl ⟨.head _, rfl⟩⟩
  | bodyLetGo hholder => exact ⟨rfl, .inr ⟨.head _, hholder, rfl⟩⟩
  | dropped hfinished hdropped => exact absurd hsettled (not_or.mpr ⟨hfinished, hdropped⟩)
  | routedDirect hphase => simp [hphase] at hsettled
  | routed upstream hphase => simp [hphase] at hsettled
  | refused _ reason hevent hphase =>
      rcases hphase with hphase | ⟨dialed, hphase⟩ | hphase | ⟨upstream, hphase⟩ |
        ⟨upstream, body, hphase⟩ <;> simp [hphase] at hsettled
  | reached dialed hphase => simp [hphase] at hsettled
  | originAnswered answer hphase => simp [hphase] at hsettled
  | collected upstream hphase hleft => simp [hphase] at hsettled
  | upstreamAnswered upstream body stream answer count hphase hok => simp [hphase] at hsettled
  | upstreamFailed upstream body stream reason hphase => simp [hphase] at hsettled
  | relayed download after frame hphase hdownload hpoll => simp [hphase] at hsettled
  | responded hphase => simp [hphase] at hsettled

/-! ## Each step is one of the server's -/

variable {display : ForwardError → String} {mode : RoutingMode} {conn next : Connection σ}

/-- Steps that stand for the event get the server's connection from the one view to the
other. -/
def Follows (mode : RoutingMode) (event : ConnectionEvent σ τ) (conn next : Connection σ) : Prop :=
  ∃ moves ∈ event.moves, run Conn.step (conn.image mode) moves = some (next.image mode)

theorem forward_follows (hkept : conn.Kept mode) {task after : ForwardTask σ}
    {event : ForwardEvent σ τ} (hcurrent : conn.current = some (.forward task))
    (hstep : task.Steps http uri base64 authenticator sender event after) :
    Follows mode (.forward event) conn { conn with current := some (.forward after) } ∧
      Kept mode { conn with current := some (.forward after) } := by
  obtain ⟨hheld, hopen⟩ := hkept.forward task hcurrent
  obtain ⟨earlier, current, closed⟩ := conn
  obtain rfl : current = some (.forward task) := hcurrent
  obtain rfl : closed = false := hopen
  refine ⟨?_, hkept.earlier, ?_, fun hclosed => (by cases hclosed)⟩
  · unfold Follows
    rw [image_forward, image_forward]
    exact ForwardTask.step_image _ hheld hstep
  · rintro _ ⟨⟩
    exact ⟨ForwardTask.held_step hheld hstep, rfl⟩

theorem earlier_follows (hkept : conn.Kept mode) {i : Nat} {task after : ForwardTask σ}
    {event : ForwardEvent σ τ} (hget : conn.earlier[i]? = some task)
    (hstep : task.Steps http uri base64 authenticator sender event after) :
    Follows mode (.earlier i event) conn { conn with earlier := conn.earlier.set i after } ∧
      Kept mode { conn with earlier := conn.earlier.set i after } := by
  have hsettled := hkept.earlier task (List.mem_of_getElem? hget)
  obtain ⟨hphase, hholder⟩ := settled_step hsettled hstep
  have hkept' : Kept mode { conn with earlier := conn.earlier.set i after } :=
    ⟨forall_mem_set hkept.earlier (hphase ▸ hsettled), hkept.forward, hkept.connect⟩
  refine ⟨?_, hkept'⟩
  -- only the count of the bodies that are held can change
  have hsum := sum_map_set (fun task : ForwardTask σ => task.holder.uploads) hget after
  have hplain : uploadsOf (plain { conn with earlier := conn.earlier.set i after }) +
      task.holder.uploads = uploadsOf conn.plain + after.holder.uploads := by
    unfold plain
    dsimp only
    split
    next current hcurrent =>
      rw [uploadsOf_concat, uploadsOf_concat, uploadsOf, uploadsOf]
      omega
    next => exact hsum
  rcases hholder with ⟨hnone, hsame⟩ | ⟨hletGo, hheld, hgone⟩
  · rw [hsame] at hplain
    refine ⟨[], hnone, ?_⟩
    rw [run_nil, image, image, Nat.add_right_cancel hplain]
    rfl
  · rw [hheld, hgone] at hplain
    have hone : uploadsOf conn.plain =
        uploadsOf (plain { conn with earlier := conn.earlier.set i after }) + 1 := hplain.symm
    refine ⟨[.letGo], hletGo, run_single ?_⟩
    rw [image, image, hone]
    rfl

/-- On a connection that is gone, all that can happen to a `CONNECT` is that its upgrade
fails. -/
theorem gone_follows (earlier : List (ForwardTask σ)) {task after : ConnectTask σ}
    {event : ConnectEvent σ}
    (hphase : (∃ through, task.phase = .upgrading through) ∨ task.phase = .failed)
    (hupgraded : ∀ client, event ≠ .upgraded client)
    (hstep : task.Steps base64 authenticator event after) :
    Follows mode (.connect event : ConnectionEvent σ τ) ⟨earlier, some (.connect task), true⟩
        ⟨earlier, some (.connect after), true⟩ ∧ after.phase = .failed := by
  cases hstep with
  | unopened through message hwaits =>
      have htunnel : task.tunnel = some (.awaiting through.isSome) := by
        rw [ConnectTask.tunnel, hwaits]
      refine ⟨⟨[.upgradeFailed], .head _, run_single ?_⟩, rfl⟩
      rw [image, image, tunnel]
      dsimp only
      rw [htunnel]
      rfl
  | opened addr peer client hwaits => exact absurd rfl (hupgraded client)
  | waited client hwaits => exact absurd rfl (hupgraded client)
  | routedDirect hwaits => simp [hwaits] at hphase
  | routed target hwaits => simp [hwaits] at hphase
  | unrouted message hwaits => simp [hwaits] at hphase
  | granted target take dial inTime peer hwaits hok => simp [hwaits] at hphase
  | denied target take dial inTime err hwaits herror => simp [hwaits] at hphase
  | reached client peer hwaits => simp [hwaits] at hphase
  | unreached client err hwaits => simp [hwaits] at hphase
  | relayed upstream peer client streams later event hwaits hnext => simp [hwaits] at hphase

theorem connect_follows (hkept : conn.Kept mode) {task after : ConnectTask σ}
    {event : ConnectEvent σ} (hcurrent : conn.current = some (.connect task))
    (hupgraded : conn.closed = true → ∀ client, event ≠ .upgraded client)
    (hstep : task.Steps base64 authenticator event after) :
    Follows mode (.connect event : ConnectionEvent σ τ) conn
        { conn with current := some (.connect after) } ∧
      Kept mode { conn with current := some (.connect after) } := by
  obtain ⟨earlier, current, closed⟩ := conn
  obtain rfl : current = some (.connect task) := hcurrent
  have hforward : ∀ other, some (Service.connect after) = some (.forward other) →
      other.Held mode ∧ closed = false := fun other hother => (by cases hother)
  cases closed with
  | false =>
      refine ⟨?_, hkept.earlier, hforward, fun hclosed => (by cases hclosed)⟩
      unfold Follows
      rw [image_connect, image_connect]
      exact ConnectTask.step_image _ hstep
  | true =>
      have hgone := hkept.connect rfl task rfl
      obtain ⟨hfollows, hfailed⟩ := gone_follows earlier hgone (hupgraded rfl) hstep
      refine ⟨hfollows, hkept.earlier, hforward, ?_⟩
      rintro - _ ⟨⟩
      exact .inr hfailed

theorem plain_settled (hkept : conn.Kept mode) (hidle : conn.serving = .serving .idle) :
    ∀ task ∈ conn.plain, task.phase = .finished ∨ task.phase = .dropped := by
  obtain ⟨hopen, -⟩ := tunnel_of_idle hidle
  unfold plain
  split
  next current hcurrent =>
    intro task hmem
    rcases List.mem_append.mp hmem with hold | hnew
    · exact hkept.earlier task hold
    · obtain rfl := List.mem_singleton.mp hnew
      rw [serving, hcurrent, hopen] at hidle
      have hfinished : task.serving = .serving .idle := hidle
      unfold ForwardTask.serving at hfinished
      split at hfinished <;> first | exact .inl ‹_› | cases hfinished
  next => exact hkept.earlier

/-- The view of a connection that waits. -/
theorem image_idle (mode : RoutingMode) (hidle : conn.serving = .serving .idle) :
    conn.image mode = { mode, task := .serving .idle, uploads := uploadsOf conn.plain } := by
  rw [image, hidle, (tunnel_of_idle hidle).2]

section

variable {ρ : Type*} {routing : Netmon.Routing (UpstreamTarget σ) ρ} {parts : Parts}
  {body : BoxedBody} {metrics : Metrics}

theorem connect_of_serviceOf {task : ConnectTask σ}
    (hservice : ForwardTask.serviceOf uri routing parts body metrics = .connect task) :
    ∃ target, task = ConnectTask.begin routing target metrics := by
  unfold ForwardTask.serviceOf at hservice
  split at hservice
  next => cases hservice
  next target htarget =>
    split at hservice
    next => exact ⟨target, (Service.connect.inj hservice).symm⟩
    next => cases hservice

/-- A plain request begins with its body, waiting for its response. -/
theorem begin_waits {task : ForwardTask σ}
    (hservice : ForwardTask.serviceOf uri routing parts body metrics = .forward task) :
    task.serving = .serving (.forwarding false) ∧ task.holder = .request ∧
      task.Held (serverMode routing) := by
  obtain ⟨target, hauthority, -, rfl⟩ := ForwardTask.begin_of_serviceOf hservice
  cases routing with
  | direct =>
      have hdials : ForwardTask.begin uri (.direct : Netmon.Routing (UpstreamTarget σ) ρ) target
          parts body metrics = { target, parts, route := ConnectTask.directLabel
                                 tracked := .start metrics, upload := .new body
                                 phase := .dialing target } :=
        ForwardTask.forwardHttp_eq hauthority
      rw [hdials]
      exact ⟨rfl, rfl, by simp, fun _ _ => ⟨rfl, by simp [serverMode]⟩, by simp⟩
  | upstream upstream =>
      exact ⟨rfl, rfl, by simp [ForwardTask.begin], by simp [ForwardTask.begin], fun _ _ => rfl⟩
  | pac router =>
      exact ⟨rfl, rfl, fun _ => ⟨rfl, by simp [serverMode]⟩, by simp [ForwardTask.begin],
        by simp [ForwardTask.begin]⟩

/-- A new request on a connection that waits. -/
theorem request_follows (hkept : conn.Kept (serverMode routing))
    (hidle : conn.serving = .serving .idle) {service : Service σ}
    (hservice : ForwardTask.serviceOf uri routing parts body metrics = service) :
    Follows (serverMode routing) (.request parts body : ConnectionEvent σ τ) conn
        { conn with earlier := conn.plain, current := some service } ∧
      Kept (serverMode routing) { conn with earlier := conn.plain, current := some service } := by
  have hsettled := plain_settled hkept hidle
  obtain ⟨hopen, -⟩ := tunnel_of_idle hidle
  have hview := image_idle (serverMode routing) hidle
  unfold Follows
  rw [hview, hopen]
  cases service with
  | badRequest =>
      refine ⟨⟨[], .head _, rfl⟩, hsettled, ?_, fun hclosed => (by cases hclosed)⟩
      intro task hcurrent
      cases hcurrent
  | forward task =>
      obtain ⟨hserving, hholder, hheld⟩ := begin_waits hservice
      refine ⟨⟨[.request], .tail _ (.head _), run_single ?_⟩, hsettled, ?_,
        fun hclosed => (by cases hclosed)⟩
      · rw [image_forward, ForwardTask.image, hserving, hholder]
        rfl
      · rintro _ ⟨⟩
        exact ⟨hheld, rfl⟩
  | connect task =>
      obtain ⟨target, rfl⟩ := connect_of_serviceOf hservice
      refine ⟨⟨[.connect], .tail _ (.tail _ (.head _)), run_single ?_⟩, hsettled, ?_,
        fun hclosed => (by cases hclosed)⟩
      · rw [image_connect]
        cases routing <;> rfl
      · intro other hcurrent
        cases hcurrent

end

/-- The connection's task ends, and the tasks it has spawned stay. -/
theorem follows_of_close {work : Serving} (hserving : conn.serving = .serving work)
    (hover : next.serving = .finished) (htunnel : next.tunnel = conn.tunnel)
    (huploads : uploadsOf next.plain = uploadsOf conn.plain) :
    Follows mode (.close : ConnectionEvent σ τ) conn next := by
  refine ⟨[.close], .head _, run_single ?_⟩
  rw [image, image, hserving, hover, htunnel, huploads]
  rfl

/-- The request that a connection leaves when it goes. -/
theorem step_dropped {task : ForwardTask σ} (hfinished : task.phase ≠ .finished)
    (hdropped : task.phase ≠ .dropped) :
    task.step http uri base64 authenticator sender display .dropped = some { task with
      holder := if task.holder = .request then .nobody else task.holder, phase := .dropped } := by
  unfold ForwardTask.step
  cases hphase : task.phase with
  | finished => exact absurd hphase hfinished
  | dropped => exact absurd hphase hdropped
  | _ => rfl

theorem kept_of_gone {earlier : List (ForwardTask σ)}
    (hearlier : ∀ task ∈ earlier, task.phase = .finished ∨ task.phase = .dropped) :
    Kept mode { earlier, current := none, closed := true } := by
  refine ⟨hearlier, fun task hcurrent => ?_, fun _ task hcurrent => ?_⟩
  · cases hcurrent
  · cases hcurrent

theorem close_forward (hkept : conn.Kept mode) {task : ForwardTask σ}
    (hcurrent : conn.current = some (.forward task)) {work : Serving}
    (hserving : task.serving = .serving work) {after : ForwardTask σ}
    (hafter : after.phase = .finished ∨ after.phase = .dropped)
    (hholder : after.holder.uploads = task.holder.uploads) :
    Follows mode (.close : ConnectionEvent σ τ) conn
        { earlier := conn.earlier ++ [after], current := none, closed := true } ∧
      Kept mode { earlier := conn.earlier ++ [after], current := none, closed := true } := by
  have hopen := (hkept.forward task hcurrent).2
  have hnow : conn.serving = .serving work := by
    rw [serving, hopen, hcurrent]
    exact hserving
  refine ⟨follows_of_close hnow rfl ?_ ?_, kept_of_gone fun other hmem => ?_⟩
  · rw [tunnel, tunnel, hcurrent]
  · rw [plain, plain, hcurrent, uploadsOf_concat, uploadsOf_concat, hholder]
  · rcases List.mem_append.mp hmem with hold | hnew
    · exact hkept.earlier other hold
    · rw [List.mem_singleton.mp hnew]
      exact hafter

/-- A `CONNECT` that was not answered is dropped; the task that awaits an upgrade stays. -/
theorem close_connect (hkept : conn.Kept mode) (hopen : conn.closed = false)
    {task : ConnectTask σ} (hcurrent : conn.current = some (.connect task)) {work : Serving}
    (hserving : task.serving = .serving work) :
    if work = .upgrading then
      Follows mode (.close : ConnectionEvent σ τ) conn { conn with closed := true } ∧
        Kept mode { conn with closed := true }
    else Follows mode (.close : ConnectionEvent σ τ) conn
        { conn with current := none, closed := true } ∧
      Kept mode { conn with current := none, closed := true } := by
  have hnow : conn.serving = .serving work := by
    rw [serving, hopen, hcurrent]
    exact hserving
  split_ifs with hupgrading
  · -- the task that awaits the upgrade outlives its connection
    refine ⟨follows_of_close hnow rfl rfl rfl, hkept.earlier, fun other hother => ?_,
      fun _ other hother => .inl ?_⟩
    · rw [hcurrent] at hother
      cases hother
    · obtain rfl := Service.connect.inj (Option.some.inj (hcurrent.symm.trans hother))
      rw [hupgrading, ConnectTask.serving] at hserving
      split at hserving <;> first | exact ⟨_, ‹_›⟩ | cases hserving
  · refine ⟨follows_of_close hnow rfl ?_ ?_, kept_of_gone hkept.earlier⟩
    · rw [tunnel, tunnel, hcurrent]
      exact (ConnectTask.tunnel_of_unanswered hserving hupgrading).symm
    · rw [plain, plain, hcurrent]

/-- The client goes away. -/
theorem close_follows (hkept : conn.Kept mode) (hopen : conn.closed = false)
    (hclose : conn.close http uri base64 authenticator sender display = some next) :
    Follows mode (.close : ConnectionEvent σ τ) conn next ∧ Kept mode next := by
  unfold close at hclose
  split at hclose
  next hcurrent =>
    obtain rfl := Option.some.inj hclose
    have hidle : conn.serving = .serving .idle := by
      rw [serving, hopen, hcurrent]
      rfl
    refine ⟨follows_of_close hidle rfl rfl rfl, hkept.earlier, fun task htask => ?_,
      fun _ task htask => ?_⟩
    · rw [hcurrent] at htask
      cases htask
    · rw [hcurrent] at htask
      cases htask
  next hcurrent =>
    obtain rfl := Option.some.inj hclose
    have hidle : conn.serving = .serving .idle := by
      rw [serving, hopen, hcurrent]
      rfl
    refine ⟨follows_of_close hidle rfl ?_ ?_, kept_of_gone hkept.earlier⟩
    · rw [tunnel, tunnel, hcurrent]
    · rw [plain, plain, hcurrent]
  next task hcurrent =>
    split at hclose
    next hphase =>
      obtain rfl := Option.some.inj hclose
      have hserving : task.serving = .serving .idle := by rw [ForwardTask.serving, hphase]
      exact close_forward hkept hcurrent hserving (.inl hphase) rfl
    next => cases hclose
    next hfinished hdropped =>
      rw [step_dropped hfinished hdropped] at hclose
      obtain rfl := Option.some.inj hclose
      have hserving : ∃ work, task.serving = .serving work := by
        unfold ForwardTask.serving
        split <;> first | exact ⟨_, rfl⟩ | exact absurd ‹_› hdropped
      obtain ⟨work, hserving⟩ := hserving
      exact close_forward hkept hcurrent hserving (.inr rfl)
        (ForwardTask.uploads_unless_request task.holder)
  next task hcurrent =>
    split at hclose
    next hserving =>
      obtain rfl := Option.some.inj hclose
      have hgone := @close_connect σ τ mode conn hkept hopen task hcurrent _ hserving
      rwa [if_pos rfl] at hgone
    next work hupgrading hserving =>
      obtain rfl := Option.some.inj hclose
      have hgone := @close_connect σ τ mode conn hkept hopen task hcurrent _ hserving
      rwa [if_neg hupgrading] at hgone
    next => cases hclose

/-- Each step of a connection and its requests is one the server knows. -/
theorem step_follows {ρ : Type*} {routing : Netmon.Routing (UpstreamTarget σ) ρ}
    {metrics : Metrics} {event : ConnectionEvent σ τ} (hkept : conn.Kept (serverMode routing))
    (hstep : conn.step http uri base64 authenticator sender display routing metrics event =
      some next) :
    Follows (serverMode routing) event conn next ∧ Kept (serverMode routing) next := by
  cases event with
  | request parts body =>
      rw [step, Option.ite_none_right_eq_some] at hstep
      obtain ⟨hidle, hnext⟩ := hstep
      obtain rfl := Option.some.inj hnext
      exact request_follows hkept hidle rfl
  | forward event =>
      simp only [step] at hstep
      split at hstep
      next task hcurrent =>
        obtain ⟨after, hafter, rfl⟩ := Option.map_eq_some_iff.mp hstep
        exact forward_follows hkept hcurrent (ForwardTask.step_cases hafter)
      next => cases hstep
  | connect event =>
      simp only [step] at hstep
      split at hstep
      next task client hcurrent =>
        split at hstep
        next => cases hstep
        next hopen =>
          obtain ⟨after, hafter, rfl⟩ := Option.map_eq_some_iff.mp hstep
          exact connect_follows hkept hcurrent (fun hclosed => absurd hclosed hopen)
            (ConnectTask.step_cases base64 authenticator hafter)
      next task hcurrent hupgraded =>
        obtain ⟨after, hafter, rfl⟩ := Option.map_eq_some_iff.mp hstep
        exact connect_follows hkept hcurrent (fun _ client heq => hupgraded client heq)
          (ConnectTask.step_cases base64 authenticator hafter)
      next => cases hstep
  | earlier i event =>
      simp only [step] at hstep
      split at hstep
      next task hget =>
        obtain ⟨after, hafter, rfl⟩ := Option.map_eq_some_iff.mp hstep
        exact earlier_follows hkept hget (ForwardTask.step_cases hafter)
      next => cases hstep
  | close =>
      rw [step, Option.ite_none_left_eq_some] at hstep
      obtain ⟨hopen, hclose⟩ := hstep
      exact close_follows hkept (Bool.eq_false_iff.mpr hopen) hclose

/-- Whatever the requests of a connection do, from its first to its last and with the bodies
and tunnels they leave behind, the server's model of it takes the steps that stand for what
happened, and from the state that was reached it goes along with whatever happens next. -/
theorem connection_refines_server {ρ : Type*} {routing : Netmon.Routing (UpstreamTarget σ) ρ}
    {metrics : Metrics} {events : List (ConnectionEvent σ τ)}
    (hrun : run (step http uri base64 authenticator sender display routing metrics) {} events =
      some conn) :
    (∃ groups, List.Forall₂ (fun event moves => moves ∈ event.moves) events groups ∧
      run Conn.step { mode := serverMode routing } (.poll :: groups.flatten) =
        some (conn.image (serverMode routing))) ∧
    ∀ event next, conn.step http uri base64 authenticator sender display routing metrics event =
        some next →
      ∃ moves ∈ event.moves, run Conn.step (conn.image (serverMode routing)) moves =
        some (next.image (serverMode routing)) := by
  have hpolled : run Conn.step { mode := serverMode routing } [.poll] =
      some (image (serverMode routing) ({} : Connection σ)) := rfl
  obtain ⟨groups, view, hgroups, hmoves, rfl, hkept⟩ := run_matched
    (fun event moves => moves ∈ event.moves)
    (fun view (conn : Connection σ) =>
      view = conn.image (serverMode routing) ∧ conn.Kept (serverMode routing))
    ⟨rfl, by simp, by simp, by simp⟩
    (fun view conn event next hrelated hstep => by
      obtain ⟨rfl, hkept⟩ := hrelated
      obtain ⟨⟨moves, hmem, hmoves⟩, hnext⟩ := step_follows hkept hstep
      exact ⟨moves, _, hmem, hmoves, rfl, hnext⟩) hrun
  refine ⟨⟨groups, hgroups, ?_⟩, fun event next hstep => (step_follows hkept hstep).1⟩
  rw [← List.singleton_append, run_append, hpolled]
  exact hmoves

end

/-- The runs of a connection in PAC mode. -/
def sampleRun (events : List (ConnectionEvent Nat Unit)) : Option (Connection Nat) :=
  run (step orderedHttp sampleAuthority standardBase64 countingAuthenticator
    ForwardTask.sampleSender (fun _ => "failed") (.pac ()) ConnectTask.startMetrics) {} events

/-- A plain request through an upstream, one to an origin, and a tunnel; the body of the
second is still read when the connection is over. -/
def sampleConnection : List (ConnectionEvent Nat Unit) :=
  [.request (getParts "http://o/x" []) ForwardTask.sampleBody] ++
    ForwardTask.sampleForward.map .forward ++
    [.request (getParts "http://o/y" []) ForwardTask.sampleBody,
      .forward (.resolved (.ok .direct)), .forward (.dialed (.ok ())), .forward .bodyFrame,
      .forward (.answered (.ok ⟨200, [], ForwardTask.sampleBody⟩)), .forward .responded,
      .request ⟨connectMethod, "o:443".toList, []⟩ ⟨[], .ok ()⟩] ++
    ConnectTask.sampleTunnel.map .connect ++ [.earlier 1 .bodyFrame]

theorem connection_refines_server_sample : ∃ conn groups,
    sampleRun sampleConnection = some conn ∧ (conn.image .pac).leftBehind = true ∧
      List.Forall₂ (fun event moves => moves ∈ event.moves) sampleConnection groups ∧
      run Conn.step { mode := .pac } (.poll :: groups.flatten) = some (conn.image .pac) := by
  have hleft : (sampleRun sampleConnection).map
      (fun conn => (conn.image .pac).leftBehind) = some true := by decide +kernel
  obtain ⟨conn, hrun, hview⟩ := Option.map_eq_some_iff.mp hleft
  obtain ⟨⟨groups, hgroups, hmoves⟩, -⟩ := connection_refines_server hrun
  exact ⟨conn, groups, hrun, hview, hgroups, hmoves⟩

end Connection

end Zicade.Proxy
