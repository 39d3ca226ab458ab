import Zicade.Proxy.Tunnel

/-! # A CONNECT from its request to the end of its tunnel

Through an upstream the tunnel is set up before the client is answered; directly, the
client is answered before the origin is dialed. Whichever way, the entry is there before
anything is asked or dialed, and the client is told 502 or 200 once.
-/

namespace Zicade.Proxy

open Zicade.Foundation Zicade.Auth Zicade.Net Zicade.Upstream Zicade.App

inductive ConnectPhase (σ : Type*)
  /-- PAC mode: the router has been asked. -/
  | resolving
  | connecting (target : UpstreamTarget σ)
  /-- Answered 502. -/
  | refused
  /-- Answered 200; the upgrade is awaited, with the upstream's address and the socket of the
  tunnel if there is one already. -/
  | upgrading (through : Option (Text × Socket))
  /-- Direct mode: the origin is dialed for a client that is waiting in its tunnel. -/
  | dialing (client : Bytes)
  | relaying (upstream : Option Text) (peer : Socket) (client : Bytes) (streams : Streams)
  /-- The tunnel failed before it carried anything. -/
  | failed

/-- A CONNECT to `dst`; `route` labels its entry. -/
structure ConnectTask (σ : Type*) where
  dst : Text
  route : Text
  answered : Option Nat
  tracked : Tracked
  phase : ConnectPhase σ

inductive ConnectEvent (σ : Type*)
  | resolved (choice : Except String (RouteChoice σ))
  | connected (take : Option Socket) (dial : Except (Halt IoError) Socket) (inTime : Bool)
  | upgraded (client : Bytes)
  | upgradeFailed (message : String)
  | dialed (result : Except IoError Socket)
  | relay (event : SpliceEvent)

namespace ConnectTask

def directLabel : Text := "direct".toList

section

variable {σ : Type*}

/-- `route_label`. -/
def routeLabel {ρ : Type*} : Netmon.Routing (UpstreamTarget σ) ρ → Text
  | .direct => directLabel
  | .upstream target => target.addr
  | .pac _ => "pac".toList

/-- The entry fails, and the client is answered 502. -/
def refuse (task : ConnectTask σ) (reason : String) : ConnectTask σ :=
  { task with answered := some 502, tracked := task.tracked.fail reason, phase := .refused }

/-- The client is answered 200, and the upgrade awaited in a task of its own. -/
def spawn (task : ConnectTask σ) (through : Option (Text × Socket)) : ConnectTask σ :=
  { task with answered := some 200, phase := .upgrading through }

/-- The entry fails; the client has been answered before. -/
def abandon (task : ConnectTask σ) (reason : String) : ConnectTask σ :=
  { task with tracked := task.tracked.fail reason, phase := .failed }

def splice (task : ConnectTask σ) (upstream : Option Text) (peer : Socket) (client : Bytes) :
    ConnectTask σ :=
  { task with
    tracked := task.tracked.setOpen
    phase := .relaying upstream peer client (.start task.tracked client peer.incoming) }

/-- The entry is there before anything is asked or dialed. -/
def begin {ρ : Type*} (routing : Netmon.Routing (UpstreamTarget σ) ρ) (dst : Text)
    (metrics : Metrics) : ConnectTask σ :=
  let task : ConnectTask σ :=
    { dst, route := routeLabel routing, answered := none
      tracked := ⟨⟨0, 0, false, .connecting⟩, metrics⟩, phase := .resolving }
  match routing with
  | .direct => task.spawn none
  | .upstream target => { task with phase := .connecting target }
  | .pac _ => task

end

section

variable {σ : Type*} (base64 : Base64) (authenticator : Authenticator σ)

def step (task : ConnectTask σ) (event : ConnectEvent σ) : Option (ConnectTask σ) :=
  match task.phase, event with
  | .resolving, .resolved (.ok .direct) =>
      some ({ task with route := directLabel }.spawn none)
  | .resolving, .resolved (.ok (.upstream target)) =>
      some { task with route := target.addr, phase := .connecting target }
  | .resolving, .resolved (.error message) =>
      some (task.refuse s!"PAC resolution failed: {message}")
  | .connecting target, .connected take dial inTime =>
      match connectViaUpstream base64 authenticator target task.dst take dial inTime with
      | .ok peer => some (task.spawn (some (target.addr, peer)))
      | .error err => some (task.refuse s!"upstream CONNECT failed: {err.message}")
  | .upgrading (some (addr, peer)), .upgraded client =>
      some (task.splice (some addr) peer client)
  | .upgrading none, .upgraded client => some { task with phase := .dialing client }
  | .upgrading _, .upgradeFailed message =>
      some (task.abandon s!"CONNECT upgrade failed: {message}")
  | .dialing client, .dialed (.ok peer) => some (task.splice none peer client)
  | .dialing _, .dialed (.error err) =>
      some (task.abandon s!"could not reach {String.ofList task.dst}: {err.message}")
  | .relaying upstream peer client streams, .relay event =>
      (streams.step event).map fun next =>
        { task with
          tracked := next.splice.tracked, phase := .relaying upstream peer client next }
  | _, _ => none

/-- What a CONNECT can do in one step. -/
inductive Steps (task : ConnectTask σ) : ConnectEvent σ → ConnectTask σ → Prop
  | routedDirect (hphase : task.phase = .resolving) :
      Steps task (.resolved (.ok .direct)) ({ task with route := directLabel }.spawn none)
  | routed (target : UpstreamTarget σ) (hphase : task.phase = .resolving) :
      Steps task (.resolved (.ok (.upstream target)))
        { task with route := target.addr, phase := .connecting target }
  | unrouted (message : String) (hphase : task.phase = .resolving) :
      Steps task (.resolved (.error message))
        (task.refuse s!"PAC resolution failed: {message}")
  | granted (target : UpstreamTarget σ) (take : Option Socket)
      (dial : Except (Halt IoError) Socket) (inTime : Bool) (peer : Socket)
      (hphase : task.phase = .connecting target)
      (hok : connectViaUpstream base64 authenticator target task.dst take dial inTime = .ok peer) :
      Steps task (.connected take dial inTime) (task.spawn (some (target.addr, peer)))
  | denied (target : UpstreamTarget σ) (take : Option Socket)
      (dial : Except (Halt IoError) Socket) (inTime : Bool) (err : IoError)
      (hphase : task.phase = .connecting target)
      (herror : connectViaUpstream base64 authenticator target task.dst take dial inTime =
        .error err) :
      Steps task (.connected take dial inTime)
        (task.refuse s!"upstream CONNECT failed: {err.message}")
  | opened (addr : Text) (peer : Socket) (client : Bytes)
      (hphase : task.phase = .upgrading (some (addr, peer))) :
      Steps task (.upgraded client) (task.splice (some addr) peer client)
  | waited (client : Bytes) (hphase : task.phase = .upgrading none) :
      Steps task (.upgraded client) { task with phase := .dialing client }
  | unopened (through : Option (Text × Socket)) (message : String)
      (hphase : task.phase = .upgrading through) :
      Steps task (.upgradeFailed message)
        (task.abandon s!"CONNECT upgrade failed: {message}")
  | reached (client : Bytes) (peer : Socket) (hphase : task.phase = .dialing client) :
      Steps task (.dialed (.ok peer)) (task.splice none peer client)
  | unreached (client : Bytes) (err : IoError) (hphase : task.phase = .dialing client) :
      Steps task (.dialed (.error err))
        (task.abandon s!"could not reach {String.ofList task.dst}: {err.message}")
  | relayed (upstream : Option Text) (peer : Socket) (client : Bytes) (streams next : Streams)
      (event : SpliceEvent) (hphase : task.phase = .relaying upstream peer client streams)
      (hnext : streams.step event = some next) :
      Steps task (.relay event) { task with
        tracked := next.splice.tracked, phase := .relaying upstream peer client next }

theorem step_cases {task next : ConnectTask σ} {event : ConnectEvent σ}
    (hstep : task.step base64 authenticator event = some next) :
    task.Steps base64 authenticator event next := by
  unfold step at hstep
  split at hstep
  next hphase => exact Option.some.inj hstep ▸ .routedDirect hphase
  next target hphase => exact Option.some.inj hstep ▸ .routed target hphase
  next message hphase => exact Option.some.inj hstep ▸ .unrouted message hphase
  next target take dial inTime hphase =>
    split at hstep
    next peer hok => exact Option.some.inj hstep ▸ .granted target take dial inTime peer hphase hok
    next err herror =>
      exact Option.some.inj hstep ▸ .denied target take dial inTime err hphase herror
  next addr peer client hphase => exact Option.some.inj hstep ▸ .opened addr peer client hphase
  next client hphase => exact Option.some.inj hstep ▸ .waited client hphase
  next through message hphase => exact Option.some.inj hstep ▸ .unopened through message hphase
  next client peer hphase => exact Option.some.inj hstep ▸ .reached client peer hphase
  next client err hphase => exact Option.some.inj hstep ▸ .unreached client err hphase
  next upstream peer client streams event hphase =>
    obtain ⟨after, hnext, hsame⟩ := Option.map_eq_some_iff.mp hstep
    exact hsame ▸ .relayed upstream peer client streams after event hphase hnext
  next => cases hstep

/-! ## What a CONNECT has come to -/

/-- How the far end of a tunnel was reached: by a handshake that was granted in time, or by
dialing the origin. -/
inductive Opened (dst : Text) (past : List (ConnectEvent σ)) : Option Text → Socket → Prop
  | directly (peer : Socket) (hdialed : .dialed (.ok peer) ∈ past) : Opened dst past none peer
  | through (target : UpstreamTarget σ) (take : Option Socket)
      (dial : Except (Halt IoError) Socket) (inTime : Bool) (peer : Socket)
      (hconnected : .connected take dial inTime ∈ past)
      (hok : connectViaUpstream base64 authenticator target dst take dial inTime = .ok peer) :
      Opened dst past (some target.addr) peer

theorem Opened.later {dst : Text} {past : List (ConnectEvent σ)} {upstream : Option Text}
    {peer : Socket} (hopened : Opened base64 authenticator dst past upstream peer)
    (event : ConnectEvent σ) :
    Opened base64 authenticator dst (past ++ [event]) upstream peer := by
  cases hopened with
  | directly peer hdialed => exact .directly peer (List.mem_append_left _ hdialed)
  | through target take dial inTime peer hconnected hok =>
      exact .through target take dial inTime peer (List.mem_append_left _ hconnected) hok

/-- An entry that has counted nothing. -/
def fresh (metrics : Metrics) : Tracked := ⟨⟨0, 0, false, .connecting⟩, metrics⟩

/-- The entry has failed before it counted anything. -/
def Spoiled (metrics : Metrics) (tracked : Tracked) : Prop :=
  ∃ reason, tracked = (fresh metrics).fail reason

/-- What is known of a CONNECT in each of its phases. -/
def Stands (dst : Text) (metrics : Metrics) (past : List (ConnectEvent σ))
    (task : ConnectTask σ) : Prop :=
  match task.phase with
  | .resolving => task.answered = none ∧ task.tracked = fresh metrics
  | .connecting target =>
      task.answered = none ∧ task.tracked = fresh metrics ∧ task.route = target.addr
  | .refused => task.answered = some 502 ∧ Spoiled metrics task.tracked
  | .upgrading none =>
      task.answered = some 200 ∧ task.tracked = fresh metrics ∧ task.route = directLabel
  | .upgrading (some (addr, peer)) =>
      task.answered = some 200 ∧ task.tracked = fresh metrics ∧ task.route = addr ∧
        Opened base64 authenticator dst past (some addr) peer
  | .dialing _ =>
      task.answered = some 200 ∧ task.tracked = fresh metrics ∧ task.route = directLabel
  | .relaying upstream peer client streams =>
      task.answered = some 200 ∧ task.tracked = streams.splice.tracked ∧
        task.route = upstream.getD directLabel ∧
        Opened base64 authenticator dst past upstream peer ∧
        ∃ events, streams.Carries (fresh metrics) client peer.incoming events
  | .failed => task.answered = some 200 ∧ Spoiled metrics task.tracked

theorem stands_begin {ρ : Type*} (routing : Netmon.Routing (UpstreamTarget σ) ρ) (dst : Text)
    (metrics : Metrics) :
    (begin routing dst metrics).Stands base64 authenticator dst metrics [] := by
  cases routing with
  | direct => exact ⟨rfl, rfl, rfl⟩
  | upstream target => exact ⟨rfl, rfl, rfl⟩
  | pac router => exact ⟨rfl, rfl⟩

/-- The socket of a tunnel is spliced with an entry that has counted nothing. -/
theorem stands_splice {dst : Text} {metrics : Metrics} {past : List (ConnectEvent σ)}
    {task : ConnectTask σ} {upstream : Option Text} {peer : Socket} {client : Bytes}
    (hanswered : task.answered = some 200) (hfresh : task.tracked = fresh metrics)
    (hroute : task.route = upstream.getD directLabel)
    (hopened : Opened base64 authenticator dst past upstream peer) :
    (task.splice upstream peer client).Stands base64 authenticator dst metrics past := by
  refine ⟨hanswered, ?_, hroute, hopened, [], ?_⟩
  · rfl
  · rw [hfresh]
    exact Streams.carries_start _ _ _

theorem stands_step {dst : Text} {metrics : Metrics} {past : List (ConnectEvent σ)}
    {task next : ConnectTask σ} {event : ConnectEvent σ} (hdst : task.dst = dst)
    (hstands : task.Stands base64 authenticator dst metrics past)
    (hstep : task.Steps base64 authenticator event next) :
    next.dst = dst ∧ next.Stands base64 authenticator dst metrics (past ++ [event]) := by
  unfold Stands at hstands
  cases hstep with
  | routedDirect hphase =>
      rw [hphase] at hstands
      exact ⟨hdst, rfl, hstands.2, rfl⟩
  | routed target hphase =>
      rw [hphase] at hstands
      exact ⟨hdst, hstands.1, hstands.2, rfl⟩
  | unrouted message hphase =>
      rw [hphase] at hstands
      exact ⟨hdst, rfl, _, congrArg (Tracked.fail · _) hstands.2⟩
  | granted target take dial inTime peer hphase hok =>
      rw [hphase] at hstands
      rw [hdst] at hok
      exact ⟨hdst, rfl, hstands.2.1, hstands.2.2,
        .through target take dial inTime peer (by simp) hok⟩
  | denied target take dial inTime err hphase herror =>
      rw [hphase] at hstands
      exact ⟨hdst, rfl, _, congrArg (Tracked.fail · _) hstands.2.1⟩
  | opened addr peer client hphase =>
      rw [hphase] at hstands
      obtain ⟨hanswered, hfresh, hroute, hopened⟩ := hstands
      exact ⟨hdst, stands_splice base64 authenticator hanswered hfresh hroute
        (hopened.later base64 authenticator _)⟩
  | waited client hphase =>
      rw [hphase] at hstands
      exact ⟨hdst, hstands⟩
  | unopened through message hphase =>
      rw [hphase] at hstands
      -- whether or not there is a socket, the client was answered and nothing was counted
      have hanswered : task.answered = some 200 ∧ task.tracked = fresh metrics := by
        cases through with
        | none => exact ⟨hstands.1, hstands.2.1⟩
        | some tunnel => exact ⟨hstands.1, hstands.2.1⟩
      exact ⟨hdst, hanswered.1, _, congrArg (Tracked.fail · _) hanswered.2⟩
  | reached client peer hphase =>
      rw [hphase] at hstands
      obtain ⟨hanswered, hfresh, hroute⟩ := hstands
      exact ⟨hdst, stands_splice base64 authenticator hanswered hfresh hroute
        (.directly peer (by simp))⟩
  | unreached client err hphase =>
      rw [hphase] at hstands
      exact ⟨hdst, hstands.1, _, congrArg (Tracked.fail · _) hstands.2.1⟩
  | relayed upstream peer client streams after event hphase hnext =>
      rw [hphase] at hstands
      obtain ⟨hanswered, -, hroute, hopened, events, hcarries⟩ := hstands
      exact ⟨hdst, hanswered, rfl, hroute, hopened.later base64 authenticator _, _,
        Streams.carries_step hcarries hnext⟩

theorem run_stands {ρ : Type*} {routing : Netmon.Routing (UpstreamTarget σ) ρ} {dst : Text}
    {metrics : Metrics} {events : List (ConnectEvent σ)} {task : ConnectTask σ}
    (hrun : run (step base64 authenticator) (begin routing dst metrics) events = some task) :
    task.Stands base64 authenticator dst metrics events := by
  have hstands := run_history_invariant
    (fun past task => task.dst = dst ∧ task.Stands base64 authenticator dst metrics past)
    ⟨by cases routing <;> rfl, stands_begin base64 authenticator routing dst metrics⟩
    (fun _ _ _ _ hinv hnext =>
      stands_step base64 authenticator hinv.1 hinv.2 (step_cases base64 authenticator hnext))
    hrun
  exact hstands.2

/-! ## The tunnel is transparent -/

/-- The far end of a tunnel: the socket it is on, as it was before the proxy used it and as
it is in the tunnel, and the legs of the handshake in between. An origin is dialed, and an
upstream granted the handshake. -/
inductive Reached (dst : Text) (past : List (ConnectEvent σ)) :
    Option Text → Socket → List Leg → Socket → Prop
  | dialed (socket : Socket) (hdialed : .dialed (.ok socket) ∈ past) :
      Reached dst past none socket [] socket
  | through (target : UpstreamTarget σ) (take : Option Socket)
      (dial : Except (Halt IoError) Socket) (inTime reused : Bool) (socket : Socket)
      (hconnected : .connected take dial inTime ∈ past)
      (hsocket : take = some socket ∨ dial = .ok socket)
      (hgranted : (handshake base64 authenticator reused target.auth dst socket).result = .ok ()) :
      Reached dst past (some target.addr) socket
        (handshake base64 authenticator reused target.auth dst socket).legs
        (handshake base64 authenticator reused target.auth dst socket).stream

/-- What the destination sends into the tunnel: an origin sends all there is on its socket,
and a gateway relays it after the head that grants the tunnel. -/
def Sends (upstream : Option Text) (socket : Socket) (origin : Bytes) : Prop :=
  match upstream with
  | none => socket.incoming = origin
  | some _ => ∃ gateway : Gateway, socket.incoming = gateway.bytes ∧ gateway.tunnel = origin

/-- The far end gets what the client sent, in order and from its first byte on, and all of it
once the client has finished; no more is counted than was taken, in either direction. -/
structure Uploads (client : Bytes) (streams : Streams) (tracked : Tracked) : Prop where
  upload : (streams.splice.pumps .clientToUpstream).accepted <+: client
  counted : tracked.entry.down ≤ (streams.splice.pumps .upstreamToClient).accepted.length ∧
    tracked.entry.up ≤ (streams.splice.pumps .clientToUpstream).accepted.length
  uploaded : ∀ u2c result, streams.splice.phase = .returned .eof u2c result →
    (streams.splice.pumps .clientToUpstream).accepted = client ∧
      tracked.entry.up = client.length

/-- The client gets what the destination sent, in order and from its first byte on; without a
failure it gets all of it, and all of it was counted. -/
structure Downloads (origin : Bytes) (streams : Streams) (tracked : Tracked) : Prop where
  download : (streams.splice.pumps .upstreamToClient).accepted <+: origin
  delivered : ∀ c2u u2c, streams.splice.phase = .returned c2u u2c (.ok ()) →
    (streams.splice.pumps .upstreamToClient).accepted = origin ∧
      tracked.entry.down = origin.length

section

variable {metrics : Metrics} {client peer : Bytes} {streams : Streams} {past : List SpliceEvent}
  (hcarries : streams.Carries (fresh metrics) client peer past)

include hcarries

theorem uploads_of_carries : Uploads client streams streams.splice.tracked where
  upload := hcarries.accepted_prefix .clientToUpstream
  counted := by
    rw [hcarries.counted.down, hcarries.counted.up]
    have hdown := (hcarries.counts .upstreamToClient).le
    have hup := (hcarries.counts .clientToUpstream).le
    simp only [fresh, Nat.zero_add]
    exact ⟨hdown, hup⟩
  uploaded := by
    intro u2c result hreturned
    have heof := (hcarries.lawful.returned _ _ _ hreturned).upload
    refine ⟨hcarries.accepted_of_eof heof.symm, ?_⟩
    rw [hcarries.counted.up, hcarries.counter_of_eof heof.symm]
    exact Nat.zero_add _

theorem downloads_of_carries : Downloads peer streams streams.splice.tracked where
  download := hcarries.accepted_prefix .upstreamToClient
  delivered := by
    intro c2u u2c hreturned
    have heof := (hcarries.lawful.returned _ _ _ hreturned).download
    rw [(hcarries.downloaded hreturned).1] at heof
    refine ⟨hcarries.accepted_of_eof heof.symm, ?_⟩
    rw [hcarries.counted.down, hcarries.counter_of_eof heof.symm]
    exact Nat.zero_add _

end

theorem Opened.reached {dst : Text} {past : List (ConnectEvent σ)} {upstream : Option Text}
    {peer : Socket} (hopened : Opened base64 authenticator dst past upstream peer) :
    ∃ socket legs, Reached base64 authenticator dst past upstream socket legs peer := by
  cases hopened with
  | directly peer hdialed => exact ⟨peer, [], .dialed peer hdialed⟩
  | through target take dial inTime peer hconnected hok =>
      obtain ⟨socket, reused, hsocket, hgranted, rfl⟩ :=
        connectViaUpstream_ok base64 authenticator hok
      exact ⟨socket, _, .through target take dial inTime reused socket hconnected hsocket hgranted⟩

/-- The far end was sent one head for each leg of its handshake, and nothing else. -/
theorem Reached.sent {dst : Text} {past : List (ConnectEvent σ)} {upstream : Option Text}
    {socket peer : Socket} {legs : List Leg}
    (hreached : Reached base64 authenticator dst past upstream socket legs peer) :
    sentBytes peer = sentBytes socket ++ connectHeads dst legs := by
  cases hreached with
  | dialed socket hdialed => simp [connectHeads]
  | through target take dial inTime reused socket hconnected hsocket hgranted =>
      exact handshakeLegs_sent base64 authenticator dst reused hgranted

/-- What is left to read on the far socket is what the destination sends into the tunnel. -/
theorem Reached.incoming {dst : Text} {past : List (ConnectEvent σ)} {upstream : Option Text}
    {socket peer : Socket} {legs : List Leg}
    (hreached : Reached base64 authenticator dst past upstream socket legs peer) {origin : Bytes}
    (hsends : Sends upstream socket origin) : peer.incoming = origin := by
  cases hreached with
  | dialed socket hdialed => exact hsends
  | through target take dial inTime reused socket hconnected hsocket hgranted =>
      obtain ⟨gateway, hspeaks, rfl⟩ := hsends
      exact gateway.incoming_of_granted base64 authenticator hspeaks hgranted

/-- The entry of a CONNECT over its life. -/
structure Accounts (metrics : Metrics) (task : ConnectTask σ) : Prop where
  unanswered : task.answered = none → task.tracked = fresh metrics
  refused : task.answered = some 502 →
    task.tracked.entry.failed = true ∧ task.tracked.entry.up = 0 ∧ task.tracked.entry.down = 0
  granted : task.answered = some 200 → (task.tracked.entry.failed = true ↔
    (task.phase = .failed ∨ ∃ upstream peer client streams c2u u2c err,
      task.phase = .relaying upstream peer client streams ∧
        streams.splice.phase = .returned c2u u2c (.error err)))
  once : task.tracked.metrics.failedRequests =
    metrics.failedRequests + if task.tracked.entry.failed then 1 else 0
  bytesIn : task.tracked.metrics.bytesIn = metrics.bytesIn + task.tracked.entry.down
  bytesOut : task.tracked.metrics.bytesOut = metrics.bytesOut + task.tracked.entry.up

theorem accounts_of_fresh {metrics : Metrics} {task : ConnectTask σ}
    (hfresh : task.tracked = fresh metrics) (hanswered : task.answered ≠ some 502)
    (hphase : task.phase ≠ .failed)
    (hrelaying : ∀ upstream peer client streams,
      task.phase ≠ .relaying upstream peer client streams) : Accounts metrics task where
  unanswered _ := hfresh
  refused h := absurd h hanswered
  granted _ := by
    rw [hfresh]
    refine ⟨fun h => (by cases h), ?_⟩
    rintro (h | ⟨upstream, peer, client, streams, c2u, u2c, err, h, -⟩)
    · exact absurd h hphase
    · exact absurd h (hrelaying _ _ _ _)
  once := by
    rw [hfresh]
    rfl
  bytesIn := by
    rw [hfresh]
    rfl
  bytesOut := by
    rw [hfresh]
    rfl

theorem accounts_of_spoiled {metrics : Metrics} {task : ConnectTask σ}
    (hspoiled : Spoiled metrics task.tracked) (hanswered : task.answered ≠ none)
    (hfailed : task.answered = some 200 → task.phase = .failed) : Accounts metrics task := by
  obtain ⟨reason, htracked⟩ := hspoiled
  refine ⟨fun h => absurd h hanswered, ?_, fun h => ⟨fun _ => .inl (hfailed h), ?_⟩, ?_, ?_, ?_⟩
  · intro _
    rw [htracked]
    exact ⟨rfl, rfl, rfl⟩
  · intro _
    rw [htracked]
    rfl
  · rw [htracked]
    rfl
  · rw [htracked]
    rfl
  · rw [htracked]
    rfl

/-- A CONNECT is refused exactly by failing its entry, fails it once at most, and counts its
bytes in the entry and in the totals alike. Before its answer the entry is as it was made. -/
theorem connect_accounts {ρ : Type*} {routing : Netmon.Routing (UpstreamTarget σ) ρ} {dst : Text}
    {metrics : Metrics} {events : List (ConnectEvent σ)} {task : ConnectTask σ}
    (hrun : run (step base64 authenticator) (begin routing dst metrics) events = some task) :
    Accounts metrics task := by
  have hstands := run_stands base64 authenticator hrun
  unfold Stands at hstands
  cases hphase : task.phase with
  | resolving =>
      rw [hphase] at hstands
      apply accounts_of_fresh hstands.2 <;> simp [hstands.1, hphase]
  | connecting target =>
      rw [hphase] at hstands
      apply accounts_of_fresh hstands.2.1 <;> simp [hstands.1, hphase]
  | refused =>
      rw [hphase] at hstands
      apply accounts_of_spoiled hstands.2 <;> simp [hstands.1]
  | upgrading through =>
      rw [hphase] at hstands
      have hfresh : task.answered = some 200 ∧ task.tracked = fresh metrics := by
        cases through with
        | none => exact ⟨hstands.1, hstands.2.1⟩
        | some tunnel => exact ⟨hstands.1, hstands.2.1⟩
      apply accounts_of_fresh hfresh.2 <;> simp [hfresh.1, hphase]
  | dialing client =>
      rw [hphase] at hstands
      apply accounts_of_fresh hstands.2.1 <;> simp [hstands.1, hphase]
  | failed =>
      rw [hphase] at hstands
      apply accounts_of_spoiled hstands.2 <;> simp [hstands.1, hphase]
  | relaying upstream peer client streams =>
      rw [hphase] at hstands
      obtain ⟨hanswered, htracked, -, -, past, hcarries⟩ := hstands
      obtain ⟨hfailed, honce⟩ := hcarries.failed_iff rfl
      obtain ⟨hup, hdown, hin, hout⟩ := hcarries.counted
      rw [← htracked] at hfailed honce hup hdown hin hout
      refine ⟨by simp [hanswered], by simp [hanswered], fun _ => ?_, honce, ?_, ?_⟩
      · rw [hfailed, hphase]
        simp
      · rw [hin, hdown]
        simp [fresh]
      · rw [hout, hup]
        simp [fresh]

end

/-! ## A tunnel through a sample gateway -/

def sampleUpstream : UpstreamTarget Nat :=
  { addr := "gw:3128".toList, auth := .negotiate 7, pool := none }

def sampleGateway : Gateway where
  responses := [chunkedChallenge [], sizedChallenge]
  granted := grantedHead
  tunnel := [1, 2, 3]
  grants := rfl
  refuses := by
    intro response hmem
    rcases List.mem_pair.mp hmem with rfl | rfl <;> decide
  small := by
    intro response hmem
    rcases List.mem_pair.mp hmem with rfl | rfl <;> decide
  drainable := by
    intro response hmem _
    rcases List.mem_pair.mp hmem with rfl | rfl
    · exact drainable_chunkedChallenge
    · exact drainable_sizedChallenge

/-- The client's byte goes up, and the three bytes come down. -/
def sampleTunnel : List (ConnectEvent Nat) :=
  [.resolved (.ok (.upstream sampleUpstream)),
    .connected none (.ok (sampleSocket sampleGateway.responses)) true, .upgraded [9],
    .relay (.pump .clientToUpstream (.chunk [9])), .relay (.pump .clientToUpstream (.accepted 1)),
    .relay (.pump .clientToUpstream .eof), .relay (.pump .upstreamToClient (.chunk [1, 2, 3])),
    .relay (.pump .upstreamToClient (.accepted 3)), .relay (.pump .upstreamToClient .eof)]

def startMetrics : Metrics := ⟨0, 0, 0⟩

def sampleRun (events : List (ConnectEvent Nat)) : Option (ConnectTask Nat) :=
  run (step standardBase64 countingAuthenticator) (begin (.pac ()) sampleTarget startMetrics) events

/-- What the two ends of a tunnel have got. -/
def carried (task : ConnectTask Nat) : Option (Bytes × Bytes) :=
  match task.phase with
  | .relaying _ _ _ streams => some ((streams.splice.pumps .clientToUpstream).accepted,
      (streams.splice.pumps .upstreamToClient).accepted)
  | _ => none

theorem carried_sampleTunnel :
    (sampleRun sampleTunnel).map carried = some (some ([9], [1, 2, 3])) := by
  decide +kernel

/-- The gateway's three bytes are what the client may get of the sample tunnel. -/
theorem sends_of_reached {upstream : Option Text} {socket peer : Socket} {legs : List Leg}
    (hreached : Reached standardBase64 countingAuthenticator sampleTarget sampleTunnel upstream
      socket legs peer) : Sends upstream socket [1, 2, 3] := by
  cases hreached with
  | dialed socket hdialed => simp [sampleTunnel] at hdialed
  | through target take dial inTime reused socket hconnected hsocket hgranted =>
      simp only [sampleTunnel, List.mem_cons, List.not_mem_nil, or_false, reduceCtorEq, false_or,
        ConnectEvent.connected.injEq] at hconnected
      obtain ⟨rfl, rfl, -⟩ := hconnected
      obtain rfl : sampleSocket sampleGateway.responses = socket := by simpa using hsocket
      exact ⟨sampleGateway, rfl, rfl⟩

theorem connect_accounts_sampleTunnel :
    ∃ task, sampleRun sampleTunnel = some task ∧ Accounts startMetrics task := by
  obtain ⟨task, hrun, -⟩ := Option.map_eq_some_iff.mp carried_sampleTunnel
  exact ⟨task, hrun, connect_accounts standardBase64 countingAuthenticator hrun⟩

end ConnectTask

end Zicade.Proxy
