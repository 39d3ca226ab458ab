import Mathlib.Data.List.Nodup
import Zicade.App.Routing
import Zicade.Auth.Base64
import Zicade.Foundation.Parties
import Zicade.Foundation.Runs
import Zicade.Routing.Pac

/-! # The PAC router

The closure the proxy calls for each request: it asks the cache, then the resolver
thread over a channel with a timeout, and maps what it learns onto a route. Calls
overlap; the thread serves one at a time and may fail, stall or stop.
-/

namespace Zicade.App

open Zicade.Foundation Zicade.Auth Zicade.Upstream Zicade.Schema Zicade.Routing

/-- Errors produced while resolving a route. -/
inductive RoutingError
  | backend (message : String)
  | unsupportedPlatform
  deriving DecidableEq, Repr

def RoutingError.text : RoutingError → String
  | .backend message => "PAC backend resolution failed: " ++ message
  | .unsupportedPlatform => "unsupported platform (not Windows)"

/-- A resolved per-request routing decision. -/
inductive RouteChoice (σ : Type*)
  | direct
  | upstream (target : UpstreamTarget σ)

/-- The pool apart, which is looked up once the choice is made. -/
def RouteChoice.withoutPool {σ : Type*} : RouteChoice σ → RouteChoice σ
  | .direct => .direct
  | .upstream target => .upstream { target with pool := none }

/-- The PAC-selected upstream inherits the PAC section's authentication. -/
def pacUpstream (routing : RoutingConfig) (host : Text) (port : UInt16) : Option UpstreamConfig :=
  routing.pac.map fun pac => { host, port, auth := pac.auth }

/-! ## Times, in nanoseconds -/

def seconds (n : Nat) : Nat := n * 1000000000

/-- Upper bound on one resolution round-trip. -/
def resolveTimeout : Nat := seconds 5

/-- How long a cached decision stays valid. -/
def cacheTtl : Nat := seconds 300

/-- Bound on cached destinations. -/
def cacheMaxEntries : Nat := 4096

/-- One pool per upstream, created on first use. -/
structure UpstreamPools where
  config : PoolSettings
  pools : Std.TreeMap Text UpstreamPool := ∅

namespace UpstreamPools

/-- Most upstreams one snapshot keeps sockets warm for. -/
def maxUpstreams : Nat := 8

def get (pools : UpstreamPools) (addr : Text) : Option UpstreamPool × UpstreamPools :=
  match pools.pools[addr]? with
  | some pool => (some pool, pools)
  | none =>
      if maxUpstreams ≤ pools.pools.size then (none, pools)
      else
        let pool := ⟨addr, pools.config⟩
        (some pool, { pools with pools := pools.pools.insert addr pool })

end UpstreamPools

/-- Successful decisions by URL, each with the time it was stored. -/
structure PacCache where
  ttl : Nat
  entries : Std.TreeMap Text (Nat × PacResult) := ∅

namespace PacCache

def get (cache : PacCache) (now : Nat) (url : Text) : Option PacResult :=
  match cache.entries[url]? with
  | none => none
  | some (storedAt, decision) => if now - storedAt < cache.ttl then some decision else none

/-- The map is cleared when it is full. -/
def put (cache : PacCache) (now : Nat) (url : Text) (decision : PacResult) : PacCache :=
  { cache with
    entries :=
      (if cacheMaxEntries ≤ cache.entries.size then ∅ else cache.entries).insert url
        (now, decision) }

end PacCache

section

variable {σ : Type*} (base64 : Base64) (sspi : Text → SspiPackage → σ)

/-- A lookup mapped onto a route; a failed one is for `failPolicy` to decide. -/
def toRouteChoice (resolved : Except RoutingError PacResult) (routing : RoutingConfig) :
    Except String (RouteChoice σ) :=
  match resolved with
  | .ok .direct => .ok .direct
  | .ok (.proxy host port) =>
      match pacUpstream routing host port with
      | none => .error "PAC selected a proxy but no [routing.pac] config is present"
      | some upstream =>
          .ok (.upstream
            { addr := hostPort host port, auth := buildAuth base64 sspi upstream.auth host
              pool := none })
  | .error err =>
      match (routing.pac.map (·.failPolicy)).getD .error with
      | .direct => .ok .direct
      | .error => .error ("PAC resolution failed: " ++ err.text)

/-- Give a PAC-selected upstream the snapshot's pool for its address. -/
def withPool (choice : RouteChoice σ) (pools : Option UpstreamPools) :
    RouteChoice σ × Option UpstreamPools :=
  match choice, pools with
  | .upstream target, some pools =>
      let (pool, pools) := pools.get target.addr
      (.upstream { target with pool }, some pools)
  | choice, pools => (choice, pools)

theorem withPool_withoutPool (choice : RouteChoice σ) (pools : Option UpstreamPools) :
    (withPool choice pools).1.withoutPool = choice.withoutPool := by
  cases choice <;> cases pools <;> rfl

/-- A choice just made has no pool yet. -/
theorem toRouteChoice_withoutPool (resolved : Except RoutingError PacResult)
    (routing : RoutingConfig) :
    (toRouteChoice base64 sspi resolved routing).map RouteChoice.withoutPool =
      toRouteChoice base64 sspi resolved routing := by
  unfold toRouteChoice
  split
  next => rfl
  next => split <;> rfl
  next => split <;> rfl

end

/-! ## Calls and the resolver thread -/

/-- What has come back over the channel of a call. -/
inductive Slot
  | empty
  | filled (result : Except RoutingError PacResult)
  | dropped

/-- How far a call of the closure has come. -/
inductive CallPhase (σ : Type*)
  | called
  | missed
  | waiting (deadline : Nat) (slot : Slot)
  | resolved (decision : PacResult)
  | decided (resolved : Except RoutingError PacResult)
  | returned (resolved : Except RoutingError PacResult) (choice : Except String (RouteChoice σ))
  | abandoned

/-- `lookedUp` and `submitted` are history: when the cache was asked, and when the
job went to the thread. -/
structure RouterCall (σ : Type*) where
  url : Text
  phase : CallPhase σ := .called
  lookedUp : Nat := 0
  submitted : Nat := 0

/-- What the resolver thread is doing. -/
inductive Resolver
  | idle
  | busy (call : Nat)
  | stopped
  deriving DecidableEq, Repr

/-- A decision the backend returned, to which call and when. -/
structure Answer where
  call : Nat
  url : Text
  result : Except RoutingError PacResult
  time : Nat

/-- A decision put in the cache. -/
structure Stored where
  url : Text
  decision : PacResult
  time : Nat
  deriving DecidableEq, Repr

/-- The last two fields are history. -/
structure RouterSystem (σ : Type*) where
  routing : RoutingConfig
  backend : Except String BackendSource
  pools : Option UpstreamPools
  cache : PacCache := { ttl := cacheTtl }
  queue : List Nat := []
  resolver : Resolver := .idle
  calls : List (RouterCall σ) := []
  now : Nat := 0
  answers : List Answer := []
  stores : List Stored := []

/-- The next step of a call, or the end of it when its client goes away. -/
inductive CallStep
  | lookup
  | submit
  | wake
  | store
  | choose
  | abandon
  deriving DecidableEq, Repr

/-- The thread's answer is what the backend returns, once there is one. -/
inductive RouterEvent
  | tick (elapsed : Nat)
  | call (url : Text)
  | own (i : Nat) (step : CallStep)
  | receive
  | answer (result : Except RoutingError PacResult)
  | stop

def resolverStopped : RoutingError := .backend "PAC resolver thread stopped"

def requestDropped : RoutingError := .backend "PAC resolver dropped the request"

def resolutionTimedOut : RoutingError :=
  .backend "PAC resolution timed out after 5s (resolver busy or WinHTTP call wedged)"

namespace RouterCall

variable {σ : Type*}

/-- A reply that nobody waits for any more is lost. -/
def fill (call : RouterCall σ) (result : Except RoutingError PacResult) : RouterCall σ :=
  match call.phase with
  | .waiting deadline .empty => { call with phase := .waiting deadline (.filled result) }
  | _ => call

/-- The thread is gone, and with it every reply it still owed. -/
def dropReply (call : RouterCall σ) : RouterCall σ :=
  match call.phase with
  | .waiting deadline .empty => { call with phase := .waiting deadline .dropped }
  | _ => call

/-- The timeout looks at the reply before it looks at the clock. -/
def wake (call : RouterCall σ) (now : Nat) : Option (RouterCall σ) :=
  match call.phase with
  | .waiting _ (.filled (.ok decision)) => some { call with phase := .resolved decision }
  | .waiting _ (.filled (.error err)) => some { call with phase := .decided (.error err) }
  | .waiting _ .dropped => some { call with phase := .decided (.error requestDropped) }
  | .waiting deadline .empty =>
      if deadline ≤ now then some { call with phase := .decided (.error resolutionTimedOut) }
      else none
  | _ => none

end RouterCall

namespace RouterSystem

variable {σ : Type*}

/-- The routing snapshot of a router, before its first call. -/
def new (router : PacRouter) : RouterSystem σ :=
  { routing := router.routing, backend := router.backend
    pools := router.pools.map fun config => { config } }

def replace (system : RouterSystem σ) (i : Nat) (call : RouterCall σ) : RouterSystem σ :=
  { system with calls := system.calls.set i call }

def lookup (system : RouterSystem σ) (i : Nat) (call : RouterCall σ) : RouterSystem σ :=
  match system.cache.get system.now call.url with
  | some decision =>
      system.replace i { call with phase := .decided (.ok decision), lookedUp := system.now }
  | none => system.replace i { call with phase := .missed, lookedUp := system.now }

/-- Send the job to the thread, if it is still there to receive it. -/
def submit (system : RouterSystem σ) (i : Nat) (call : RouterCall σ) : RouterSystem σ :=
  if system.resolver = .stopped then
    system.replace i
      { call with phase := .decided (.error resolverStopped), submitted := system.now }
  else
    { system.replace i
        { call with
          phase := .waiting (system.now + resolveTimeout) .empty, submitted := system.now } with
      queue := system.queue ++ [i] }

/-- A backend that could not be built answers every request with its error. -/
def replyOf (system : RouterSystem σ) (result : Except RoutingError PacResult) :
    Except RoutingError PacResult :=
  match system.backend with
  | .ok _ => result
  | .error message => .error (.backend message)

def answer (system : RouterSystem σ) (i : Nat) (call : RouterCall σ)
    (result : Except RoutingError PacResult) : RouterSystem σ :=
  { system.replace i (call.fill result) with
    resolver := .idle
    answers := system.answers ++ [⟨i, call.url, result, system.now⟩] }

def store (system : RouterSystem σ) (i : Nat) (call : RouterCall σ) (decision : PacResult) :
    RouterSystem σ :=
  { system.replace i { call with phase := .decided (.ok decision) } with
    cache := system.cache.put system.now call.url decision
    stores := system.stores ++ [⟨call.url, decision, system.now⟩] }

variable (base64 : Base64) (sspi : Text → SspiPackage → σ)

def choose (system : RouterSystem σ) (i : Nat) (call : RouterCall σ)
    (resolved : Except RoutingError PacResult) : RouterSystem σ :=
  match toRouteChoice base64 sspi resolved system.routing with
  | .error message => system.replace i { call with phase := .returned resolved (.error message) }
  | .ok choice =>
      { system.replace i
          { call with phase := .returned resolved (.ok (withPool choice system.pools).1) } with
        pools := (withPool choice system.pools).2 }

/-- One step of a call: its phase says which it can take. -/
def stepCall (system : RouterSystem σ) (i : Nat) (call : RouterCall σ) :
    CallStep → Option (RouterSystem σ)
  | .lookup =>
      match call.phase with
      | .called => some (system.lookup i call)
      | _ => none
  | .submit =>
      match call.phase with
      | .missed => some (system.submit i call)
      | _ => none
  | .wake => (call.wake system.now).map fun after => system.replace i after
  | .store =>
      match call.phase with
      | .resolved decision => some (system.store i call decision)
      | _ => none
  | .choose =>
      match call.phase with
      | .decided resolved => some (system.choose base64 sspi i call resolved)
      | _ => none
  | .abandon =>
      match call.phase with
      | .returned _ _ => none
      | _ => some (system.replace i { call with phase := .abandoned })

def step (system : RouterSystem σ) : RouterEvent → Option (RouterSystem σ)
  | .tick elapsed => some { system with now := system.now + elapsed }
  | .call url => some { system with calls := system.calls ++ [{ url }] }
  | .own i step => (system.calls[i]?).bind fun call => system.stepCall base64 sspi i call step
  | .receive =>
      match system.resolver, system.queue with
      | .idle, i :: rest => some { system with resolver := .busy i, queue := rest }
      | _, _ => none
  | .answer result =>
      match system.resolver with
      | .busy i =>
          (system.calls[i]?).map fun call => system.answer i call (system.replyOf result)
      | _ => none
  | .stop =>
      match system.resolver with
      | .stopped => none
      | _ =>
          some { system with
            resolver := .stopped, queue := [], calls := system.calls.map RouterCall.dropReply }

/-- The moves of a call, each with the phase it starts from. -/
inductive CallMoves (system : RouterSystem σ) (i : Nat) (call : RouterCall σ) :
    CallStep → RouterSystem σ → Prop
  | lookup (hphase : call.phase = .called) :
      CallMoves system i call .lookup (system.lookup i call)
  | submit (hphase : call.phase = .missed) :
      CallMoves system i call .submit (system.submit i call)
  | wake (after : RouterCall σ) (hwake : call.wake system.now = some after) :
      CallMoves system i call .wake (system.replace i after)
  | store (decision : PacResult) (hphase : call.phase = .resolved decision) :
      CallMoves system i call .store (system.store i call decision)
  | choose (resolved : Except RoutingError PacResult) (hphase : call.phase = .decided resolved) :
      CallMoves system i call .choose (system.choose base64 sspi i call resolved)
  | abandon (hphase : ∀ resolved choice, call.phase ≠ .returned resolved choice) :
      CallMoves system i call .abandon (system.replace i { call with phase := .abandoned })

/-- The moves of the system. -/
inductive Moves (system : RouterSystem σ) : RouterEvent → RouterSystem σ → Prop
  | tick (elapsed : Nat) : Moves system (.tick elapsed) { system with now := system.now + elapsed }
  | call (url : Text) :
      Moves system (.call url) { system with calls := system.calls ++ [{ url }] }
  | own (i : Nat) (call : RouterCall σ) (turn : CallStep) (next : RouterSystem σ)
      (hget : system.calls[i]? = some call)
      (hcall : CallMoves base64 sspi system i call turn next) :
      Moves system (.own i turn) next
  | receive (i : Nat) (rest : List Nat) (hidle : system.resolver = .idle)
      (hqueue : system.queue = i :: rest) :
      Moves system .receive { system with resolver := .busy i, queue := rest }
  | answer (i : Nat) (call : RouterCall σ) (result : Except RoutingError PacResult)
      (hbusy : system.resolver = .busy i) (hget : system.calls[i]? = some call) :
      Moves system (.answer result) (system.answer i call (system.replyOf result))
  | stop (hrunning : system.resolver ≠ .stopped) :
      Moves system .stop
        { system with
          resolver := .stopped, queue := [], calls := system.calls.map RouterCall.dropReply }

section Moves

variable {base64 sspi} {system next : RouterSystem σ}

theorem stepCall_cases {i : Nat} {call : RouterCall σ} {turn : CallStep}
    (hstep : system.stepCall base64 sspi i call turn = some next) :
    CallMoves base64 sspi system i call turn next := by
  cases turn with
  | lookup =>
      simp only [stepCall] at hstep
      split at hstep
      next hphase => exact Option.some.inj hstep ▸ .lookup hphase
      next => cases hstep
  | submit =>
      simp only [stepCall] at hstep
      split at hstep
      next hphase => exact Option.some.inj hstep ▸ .submit hphase
      next => cases hstep
  | wake =>
      obtain ⟨after, hwake, rfl⟩ := Option.map_eq_some_iff.mp hstep
      exact .wake after hwake
  | store =>
      simp only [stepCall] at hstep
      split at hstep
      next decision hphase => exact Option.some.inj hstep ▸ .store decision hphase
      next => cases hstep
  | choose =>
      simp only [stepCall] at hstep
      split at hstep
      next resolved hphase => exact Option.some.inj hstep ▸ .choose resolved hphase
      next => cases hstep
  | abandon =>
      simp only [stepCall] at hstep
      split at hstep
      next => cases hstep
      next hphase => exact Option.some.inj hstep ▸ .abandon hphase

theorem step_cases {event : RouterEvent} (hstep : system.step base64 sspi event = some next) :
    Moves base64 sspi system event next := by
  cases event with
  | tick elapsed => exact Option.some.inj hstep ▸ .tick elapsed
  | call url => exact Option.some.inj hstep ▸ .call url
  | own i turn =>
      obtain ⟨call, hget, hturn⟩ := Option.bind_eq_some_iff.mp hstep
      exact .own i call turn next hget (stepCall_cases hturn)
  | receive =>
      simp only [step] at hstep
      split at hstep
      next i rest hidle hqueue => exact Option.some.inj hstep ▸ .receive i rest hidle hqueue
      next => cases hstep
  | answer result =>
      simp only [step] at hstep
      split at hstep
      next i hbusy =>
        obtain ⟨call, hget, rfl⟩ := Option.map_eq_some_iff.mp hstep
        exact .answer i call result hbusy hget
      next => cases hstep
  | stop =>
      simp only [step] at hstep
      split at hstep
      next => cases hstep
      next hrunning => exact Option.some.inj hstep ▸ .stop hrunning

theorem CallMoves.routing {i : Nat} {call : RouterCall σ} {turn : CallStep}
    (hcall : CallMoves base64 sspi system i call turn next) : next.routing = system.routing := by
  cases hcall with
  | lookup =>
      unfold RouterSystem.lookup
      split <;> rfl
  | submit =>
      unfold RouterSystem.submit
      split <;> rfl
  | choose =>
      unfold RouterSystem.choose
      split <;> rfl
  | wake | store | abandon => rfl

/-- A snapshot keeps the config it was built from. -/
theorem Moves.routing {event : RouterEvent} (hmove : Moves base64 sspi system event next) :
    next.routing = system.routing := by
  cases hmove with
  | own i call turn next hget hcall => exact hcall.routing
  | tick | call | receive | answer | stop => rfl

end Moves

end RouterSystem

/-! ## What a choice rests on -/

namespace RouterSystem

variable {σ : Type*}

/-- The backend returned this result to this call, after the call asked the cache. -/
def Answered (system : RouterSystem σ) (i : Nat) (call : RouterCall σ)
    (result : Except RoutingError PacResult) : Prop :=
  ∃ answer ∈ system.answers, answer.call = i ∧ answer.url = call.url ∧
    answer.result = result ∧ call.lookedUp ≤ answer.time

/-- The backend returned this decision for this URL, and it was stored less than the
TTL before the call asked the cache. -/
def Cached (system : RouterSystem σ) (call : RouterCall σ) (decision : PacResult) : Prop :=
  ∃ stored ∈ system.stores, stored.url = call.url ∧ stored.decision = decision ∧
    stored.time ≤ call.lookedUp ∧ call.lookedUp < stored.time + cacheTtl ∧
    ∃ answer ∈ system.answers, answer.url = call.url ∧ answer.result = .ok decision ∧
      answer.time ≤ stored.time

/-- The resolution of this call failed: the backend said so, or nothing it answered
came in time. -/
def Failed (system : RouterSystem σ) (i : Nat) (call : RouterCall σ) (err : RoutingError) : Prop :=
  system.Answered i call (.error err) ∨
    (err = resolverStopped ∨ err = requestDropped ∨ err = resolutionTimedOut) ∧
      ∀ answer ∈ system.answers, answer.call = i →
        call.submitted + resolveTimeout ≤ answer.time

/-- What a call took for the outcome of its lookup is just that. -/
def Justified (system : RouterSystem σ) (i : Nat) (call : RouterCall σ) :
    Except RoutingError PacResult → Prop
  | .ok decision => system.Answered i call (.ok decision) ∨ system.Cached call decision
  | .error err => system.Failed i call err

/-- The calls the thread still owes a reply. -/
def pending (system : RouterSystem σ) : List Nat :=
  match system.resolver with
  | .busy i => i :: system.queue
  | _ => system.queue

/-- No answer to a call so far, and none to come. -/
def Quiet (system : RouterSystem σ) (i : Nat) : Prop :=
  (∀ answer ∈ system.answers, answer.call ≠ i) ∧ i ∉ system.pending

/-- An outcome that stays justified: what fails without an answer is not answered
later, or has waited long enough. -/
def Settled (system : RouterSystem σ) (i : Nat) (call : RouterCall σ)
    (resolved : Except RoutingError PacResult) : Prop :=
  system.Justified i call resolved ∧
    ∀ err, resolved = .error err →
      system.Answered i call (.error err) ∨ i ∉ system.pending ∨
        call.submitted + resolveTimeout ≤ system.now

variable (base64 : Base64) (sspi : Text → SspiPackage → σ)

/-- What each phase of a call says of the answers. -/
def Sound (system : RouterSystem σ) (i : Nat) (call : RouterCall σ) : Prop :=
  call.lookedUp ≤ system.now ∧
    match call.phase with
    | .called | .missed | .waiting _ .dropped => system.Quiet i
    | .waiting deadline .empty =>
        deadline = call.submitted + resolveTimeout ∧ ∀ answer ∈ system.answers, answer.call ≠ i
    | .waiting _ (.filled result) => system.Answered i call result
    | .resolved decision => system.Answered i call (.ok decision)
    | .decided resolved => system.Settled i call resolved
    | .returned resolved choice => system.Settled i call resolved ∧
        choice.map RouteChoice.withoutPool = toRouteChoice base64 sspi resolved system.routing
    | .abandoned => True

/-- The cache holds what was answered and is bounded, and every call is sound. -/
structure Consistent (system : RouterSystem σ) : Prop where
  ttl : system.cache.ttl = cacheTtl
  bounded : system.cache.entries.size ≤ cacheMaxEntries
  cached : ∀ url time decision, system.cache.entries[url]? = some (time, decision) →
    ⟨url, decision, time⟩ ∈ system.stores
  stores : ∀ stored ∈ system.stores, stored.time ≤ system.now ∧
    ∃ answer ∈ system.answers, answer.url = stored.url ∧ answer.result = .ok stored.decision ∧
      answer.time ≤ stored.time
  answers : ∀ answer ∈ system.answers, answer.time ≤ system.now ∧
    answer.call < system.calls.length
  pending : ∀ i ∈ system.pending, i < system.calls.length
  calls : ∀ (i : Nat) (call : RouterCall σ), system.calls[i]? = some call →
    system.Sound base64 sspi i call

/-- A later state of the system: new answers are to pending calls, at their time. -/
structure Extends (system next : RouterSystem σ) : Prop where
  routing : next.routing = system.routing
  now : system.now ≤ next.now
  kept : ∀ answer ∈ system.answers, answer ∈ next.answers
  answers : ∀ answer ∈ next.answers, answer ∈ system.answers ∨
    (answer.call ∈ system.pending ∧ system.now ≤ answer.time)
  stores : ∀ stored ∈ system.stores, stored ∈ next.stores

section Extension

variable {system next : RouterSystem σ} {i : Nat} {call : RouterCall σ}
  {resolved : Except RoutingError PacResult}

theorem Extends.of_history (hrouting : next.routing = system.routing)
    (hnow : system.now ≤ next.now) (hanswers : next.answers = system.answers)
    (hstores : next.stores = system.stores) : system.Extends next where
  routing := hrouting
  now := hnow
  kept := fun _ hmem => hanswers ▸ hmem
  answers := fun _ hmem => .inl (hanswers ▸ hmem)
  stores := fun _ hmem => hstores ▸ hmem

theorem Extends.answered (hext : system.Extends next)
    (hanswered : system.Answered i call resolved) :
    next.Answered i call resolved := by
  obtain ⟨answer, hmem, hanswer⟩ := hanswered
  exact ⟨answer, hext.kept answer hmem, hanswer⟩

theorem Extends.cached {decision : PacResult} (hext : system.Extends next)
    (hcached : system.Cached call decision) : next.Cached call decision := by
  obtain ⟨stored, hstored, hurl, hdecision, hpast, hfresh, answer, hmem, hanswer⟩ := hcached
  exact ⟨stored, hext.stores stored hstored, hurl, hdecision, hpast, hfresh, answer,
    hext.kept answer hmem, hanswer⟩

theorem Extends.quiet (hext : system.Extends next) (hquiet : system.Quiet i)
    (hpending : i ∈ next.pending → i ∈ system.pending) : next.Quiet i := by
  refine ⟨fun answer hmem heq => ?_, fun hnext => hquiet.2 (hpending hnext)⟩
  rcases hext.answers answer hmem with hold | ⟨howed, -⟩
  · exact hquiet.1 answer hold heq
  · exact hquiet.2 (heq ▸ howed)

theorem Extends.settled (hext : system.Extends next) (hsettled : system.Settled i call resolved)
    (hpending : i ∈ next.pending → i ∈ system.pending) : next.Settled i call resolved := by
  obtain ⟨hjustified, hlasts⟩ := hsettled
  cases resolved with
  | ok decision =>
      exact ⟨hjustified.imp hext.answered hext.cached, nofun⟩
  | error err =>
      refine ⟨?_, ?_⟩
      · rcases hjustified with hanswered | ⟨hreason, hlate⟩
        · exact .inl (hext.answered hanswered)
        · rcases hlasts err rfl with hanswered | hlasts
          · exact .inl (hext.answered hanswered)
          · refine .inr ⟨hreason, fun answer hmem heq => ?_⟩
            rcases hext.answers answer hmem with hold | ⟨howed, htime⟩
            · exact hlate answer hold heq
            · -- an answer that comes now comes to a call that has timed out
              rcases hlasts with hgone | htimed
              · exact absurd (heq ▸ howed) hgone
              · exact htimed.trans htime
      · intro other heq
        obtain rfl := Except.error.inj heq
        rcases hlasts _ rfl with hanswered | hgone | htimed
        · exact .inl (hext.answered hanswered)
        · exact .inr (.inl fun hnext => hgone (hpending hnext))
        · exact .inr (.inr (htimed.trans hext.now))

/-- A call that took no step is sound in a later state, unless it was answered
while it waited. -/
theorem Extends.sound (hext : system.Extends next) (hsound : system.Sound base64 sspi i call)
    (hpending : i ∈ next.pending → i ∈ system.pending)
    (hempty : ∀ deadline, call.phase = .waiting deadline .empty →
      ∀ answer ∈ next.answers, answer.call = i → answer ∈ system.answers) :
    next.Sound base64 sspi i call := by
  obtain ⟨hpast, hphase⟩ := hsound
  refine ⟨hpast.trans hext.now, ?_⟩
  cases hcase : call.phase with
  | called =>
      rw [hcase] at hphase
      exact hext.quiet hphase hpending
  | missed =>
      rw [hcase] at hphase
      exact hext.quiet hphase hpending
  | waiting deadline slot =>
      rw [hcase] at hphase
      cases slot with
      | empty =>
          refine ⟨hphase.1, fun answer hmem heq => ?_⟩
          exact hphase.2 answer (hempty deadline hcase answer hmem heq) heq
      | filled result => exact hext.answered hphase
      | dropped => exact hext.quiet hphase hpending
  | resolved decision =>
      rw [hcase] at hphase
      exact hext.answered hphase
  | decided resolved =>
      rw [hcase] at hphase
      exact hext.settled hphase hpending
  | returned resolved choice =>
      rw [hcase] at hphase
      exact ⟨hext.settled hphase.1 hpending, hext.routing ▸ hphase.2⟩
  | abandoned => trivial

end Extension

section Steps

variable {base64 sspi} {system next : RouterSystem σ} {i : Nat} {call after : RouterCall σ}

theorem Extends.replace (system : RouterSystem σ) (i : Nat) (after : RouterCall σ) :
    system.Extends (system.replace i after) :=
  .of_history rfl le_rfl rfl rfl

/-- A step of one call that answers nothing: the others are as they were. -/
theorem Consistent.calls_set (hcons : system.Consistent base64 sspi) (hext : system.Extends next)
    (hanswers : next.answers = system.answers)
    (hpending : ∀ j ∈ next.pending, j ∈ system.pending ∨ j = i)
    (hafter : next.Sound base64 sspi i after) (j : Nat) (party : RouterCall σ)
    (hparty : (system.calls.set i after)[j]? = some party) : next.Sound base64 sspi j party := by
  rcases getElem?_set_cases hparty with ⟨rfl, rfl⟩ | ⟨hne, hold⟩
  · exact hafter
  · refine hext.sound base64 sspi (hcons.calls j party hold) (fun hmem => ?_) ?_
    · exact (hpending j hmem).resolve_right hne
    · exact fun _ _ answer hmem _ => hanswers ▸ hmem

theorem Consistent.replace (hcons : system.Consistent base64 sspi)
    (hafter : (system.replace i after).Sound base64 sspi i after) :
    (system.replace i after).Consistent base64 sspi := by
  have hlength : (system.replace i after).calls.length = system.calls.length := List.length_set
  refine { hcons with answers := ?_, pending := ?_, calls := ?_ }
  · exact hlength ▸ hcons.answers
  · exact hlength ▸ hcons.pending
  · exact hcons.calls_set (.replace system i after) rfl (fun _ hmem => .inl hmem) hafter

theorem Consistent.lookup (hcons : system.Consistent base64 sspi)
    (hget : system.calls[i]? = some call) (hphase : call.phase = .called) :
    (system.lookup i call).Consistent base64 sspi := by
  obtain ⟨-, hsound⟩ := hcons.calls i call hget
  rw [hphase] at hsound
  unfold RouterSystem.lookup
  split
  next decision hcache =>
    refine hcons.replace ⟨le_rfl, .inr ?_, nofun⟩
    unfold PacCache.get at hcache
    split at hcache
    next => cases hcache
    next time found hentry =>
      split at hcache
      next hfresh =>
        obtain rfl := Option.some.inj hcache
        have hstored := hcons.cached _ _ _ hentry
        obtain ⟨hpast, answer, hmem, hanswer⟩ := hcons.stores _ hstored
        have httl := hcons.ttl
        refine ⟨_, hstored, rfl, rfl, hpast, ?_, answer, hmem, hanswer⟩
        simp only at hpast ⊢
        omega
      next => cases hcache
  next => exact hcons.replace ⟨le_rfl, hsound⟩

/-- A resolution that was never answered, and will not be. -/
theorem Quiet.settled (hquiet : system.Quiet i) {err : RoutingError}
    (hreason : err = resolverStopped ∨ err = requestDropped ∨ err = resolutionTimedOut) :
    system.Settled i call (.error err) := by
  refine ⟨.inr ⟨hreason, fun answer hmem heq => absurd heq (hquiet.1 answer hmem)⟩, ?_⟩
  exact fun _ _ => .inr (.inl hquiet.2)

theorem mem_pending_concat {calls : List (RouterCall σ)} (j : Nat)
    (hmem : j ∈ pending { system with calls, queue := system.queue ++ [i] }) :
    j ∈ system.pending ∨ j = i := by
  unfold pending at hmem ⊢
  cases hresolver : system.resolver <;> simp only [hresolver] at hmem ⊢ <;> simp at hmem ⊢ <;> tauto

theorem Consistent.submit (hcons : system.Consistent base64 sspi)
    (hget : system.calls[i]? = some call) (hphase : call.phase = .missed) :
    (system.submit i call).Consistent base64 sspi := by
  obtain ⟨hpast, hsound⟩ := hcons.calls i call hget
  rw [hphase] at hsound
  unfold RouterSystem.submit
  split
  next hstopped => exact hcons.replace ⟨hpast, Quiet.settled hsound (.inl rfl)⟩
  next hrunning =>
    have hlt := (List.getElem?_eq_some_iff.mp hget).1
    refine { hcons with answers := ?_, pending := ?_, calls := ?_ }
    · exact fun answer hmem => ⟨(hcons.answers answer hmem).1,
        (hcons.answers answer hmem).2.trans_eq List.length_set.symm⟩
    · intro j hmem
      refine Nat.lt_of_lt_of_eq ?_ List.length_set.symm
      rcases mem_pending_concat j hmem with hold | rfl
      · exact hcons.pending j hold
      · exact hlt
    · exact hcons.calls_set (.of_history rfl le_rfl rfl rfl) rfl mem_pending_concat
        ⟨hpast, rfl, hsound.1⟩

theorem Consistent.wake (hcons : system.Consistent base64 sspi)
    (hget : system.calls[i]? = some call) (hwake : call.wake system.now = some after) :
    (system.replace i after).Consistent base64 sspi := by
  obtain ⟨hpast, hsound⟩ := hcons.calls i call hget
  unfold RouterCall.wake at hwake
  split at hwake
  next deadline decision hphase =>
    obtain rfl := Option.some.inj hwake
    rw [hphase] at hsound
    exact hcons.replace ⟨hpast, hsound⟩
  next deadline err hphase =>
    obtain rfl := Option.some.inj hwake
    rw [hphase] at hsound
    refine hcons.replace ⟨hpast, .inl hsound, fun other heq => ?_⟩
    obtain rfl := Except.error.inj heq
    exact .inl hsound
  next deadline hphase =>
    obtain rfl := Option.some.inj hwake
    rw [hphase] at hsound
    exact hcons.replace ⟨hpast, Quiet.settled hsound (.inr (.inl rfl))⟩
  next deadline hphase =>
    split at hwake
    next htime =>
      obtain rfl := Option.some.inj hwake
      rw [hphase] at hsound
      obtain ⟨rfl, hunheard⟩ := hsound
      refine hcons.replace ⟨hpast, .inr ⟨.inr (.inr rfl), ?_⟩, fun _ _ => .inr (.inr htime)⟩
      exact fun answer hmem heq => absurd heq (hunheard answer hmem)
    next => cases hwake
  next => cases hwake

/-- However full the cache was. -/
theorem PacCache.size_put (cache : PacCache) (now : Nat) (url : Text) (decision : PacResult) :
    (cache.put now url decision).entries.size ≤ cacheMaxEntries := by
  unfold PacCache.put
  refine Std.TreeMap.size_insert_le.trans ?_
  split
  next => rw [Std.TreeMap.size_emptyc]; decide
  next hroom => omega

/-- What the cache holds after a store was there before, or is what was stored. -/
theorem PacCache.put_cases {cache : PacCache} {now time : Nat} {url key : Text}
    {decision found : PacResult}
    (hget : (cache.put now url decision).entries[key]? = some (time, found)) :
    (key = url ∧ time = now ∧ found = decision) ∨ cache.entries[key]? = some (time, found) := by
  unfold PacCache.put at hget
  rw [Std.TreeMap.getElem?_insert] at hget
  split at hget
  next heq =>
    obtain ⟨rfl, rfl⟩ := Prod.mk.inj (Option.some.inj hget)
    exact .inl ⟨(Std.LawfulEqCmp.eq_of_compare heq).symm, rfl, rfl⟩
  next =>
    split at hget
    next => simp at hget
    next => exact .inr hget

theorem Consistent.store (hcons : system.Consistent base64 sspi) {decision : PacResult}
    (hget : system.calls[i]? = some call) (hphase : call.phase = .resolved decision) :
    (system.store i call decision).Consistent base64 sspi := by
  obtain ⟨hpast, hsound⟩ := hcons.calls i call hget
  rw [hphase] at hsound
  have hext : system.Extends (system.store i call decision) :=
    ⟨rfl, le_rfl, fun _ hmem => hmem, fun _ hmem => .inl hmem,
      fun _ hmem => List.mem_append_left _ hmem⟩
  refine
    { ttl := hcons.ttl, bounded := PacCache.size_put _ _ _ _, cached := ?_
      stores := ?_, answers := ?_, pending := ?_, calls := ?_ }
  · intro url time found hentry
    rcases PacCache.put_cases hentry with ⟨rfl, rfl, rfl⟩ | hold
    · exact List.mem_append_right _ (List.mem_singleton_self _)
    · exact List.mem_append_left _ (hcons.cached url time found hold)
  · intro stored hmem
    rcases List.mem_append.mp hmem with hold | hnew
    · exact hcons.stores stored hold
    · obtain ⟨answer, hanswer, -, hurl, hresult, -⟩ := hsound
      rw [List.mem_singleton.mp hnew]
      exact ⟨le_rfl, answer, hanswer, hurl, hresult, (hcons.answers answer hanswer).1⟩
  · exact fun answer hmem => ⟨(hcons.answers answer hmem).1,
      (hcons.answers answer hmem).2.trans_eq List.length_set.symm⟩
  · exact fun j hmem => (hcons.pending j hmem).trans_eq List.length_set.symm
  · exact hcons.calls_set hext rfl (fun _ hmem => .inl hmem) ⟨hpast, .inl hsound, nofun⟩

theorem Consistent.choose (hcons : system.Consistent base64 sspi)
    {resolved : Except RoutingError PacResult} (hget : system.calls[i]? = some call)
    (hphase : call.phase = .decided resolved) :
    (system.choose base64 sspi i call resolved).Consistent base64 sspi := by
  obtain ⟨hpast, hsound⟩ := hcons.calls i call hget
  rw [hphase] at hsound
  have herased := toRouteChoice_withoutPool base64 sspi resolved system.routing
  unfold RouterSystem.choose
  split
  next message hchoice => exact hcons.replace ⟨hpast, hsound, hchoice.symm⟩
  next choice hchoice =>
    rw [hchoice] at herased
    have hsame : (Except.ok (withPool choice system.pools).1 : Except String _).map
        RouteChoice.withoutPool = toRouteChoice base64 sspi resolved system.routing :=
      (congrArg Except.ok (withPool_withoutPool choice system.pools)).trans
        (herased.trans hchoice.symm)
    have hreturned : (system.replace i { call with
        phase := .returned resolved (.ok (withPool choice system.pools).1) }).Consistent
          base64 sspi :=
      hcons.replace ⟨hpast, hsound, hsame⟩
    exact { hreturned with }

theorem Consistent.callMoves (hcons : system.Consistent base64 sspi) {turn : CallStep}
    (hget : system.calls[i]? = some call)
    (hcall : CallMoves base64 sspi system i call turn next) : next.Consistent base64 sspi := by
  cases hcall with
  | lookup hphase => exact hcons.lookup hget hphase
  | submit hphase => exact hcons.submit hget hphase
  | wake after hwake => exact hcons.wake hget hwake
  | store decision hphase => exact hcons.store hget hphase
  | choose resolved hphase => exact hcons.choose hget hphase
  | abandon => exact hcons.replace ⟨(hcons.calls i call hget).1, trivial⟩

theorem Consistent.called (hcons : system.Consistent base64 sspi) (url : Text) :
    Consistent base64 sspi { system with calls := system.calls ++ [{ url }] } := by
  have hlength : (system.calls ++ [({ url } : RouterCall σ)]).length = system.calls.length + 1 := by
    rw [List.length_append, List.length_singleton]
  have hext : system.Extends { system with calls := system.calls ++ [{ url }] } :=
    .of_history rfl le_rfl rfl rfl
  refine { hcons with answers := ?_, pending := ?_, calls := ?_ }
  · exact fun answer hmem => ⟨(hcons.answers answer hmem).1,
      hlength ▸ Nat.lt_succ_of_lt (hcons.answers answer hmem).2⟩
  · exact fun j hmem => hlength ▸ Nat.lt_succ_of_lt (hcons.pending j hmem)
  · intro j party hparty
    rw [List.getElem?_append] at hparty
    split at hparty
    next =>
      exact hext.sound base64 sspi (hcons.calls j party hparty) id fun _ _ _ hmem _ => hmem
    next hpast =>
      -- nothing has been said of a call that has just been made
      obtain ⟨hzero, rfl⟩ := List.getElem?_eq_some_iff.mp hparty
      rw [List.getElem_singleton]
      refine ⟨Nat.zero_le _, fun answer hmem heq => ?_, fun hmem => ?_⟩
      · exact hpast (heq ▸ (hcons.answers answer hmem).2)
      · exact hpast (hcons.pending j hmem)

/-- An answer goes to the call that was waiting for it, and to no other. -/
theorem Consistent.answer (hcons : system.Consistent base64 sspi)
    (hbusy : system.resolver = .busy i) (hget : system.calls[i]? = some call)
    (result : Except RoutingError PacResult) :
    (system.answer i call result).Consistent base64 sspi := by
  have howed : i ∈ system.pending := by
    rw [RouterSystem.pending, hbusy]
    exact List.mem_cons_self
  have hpending (j : Nat) (hmem : j ∈ (system.answer i call result).pending) :
      j ∈ system.pending := by
    rw [RouterSystem.pending, hbusy]
    exact List.mem_cons_of_mem _ hmem
  have hext : system.Extends (system.answer i call result) := by
    refine ⟨rfl, le_rfl, fun _ hmem => List.mem_append_left _ hmem, fun answer hmem => ?_,
      fun _ hmem => hmem⟩
    rcases List.mem_append.mp hmem with hold | hnew
    · exact .inl hold
    · rw [List.mem_singleton.mp hnew]
      exact .inr ⟨howed, le_rfl⟩
  have hlt := (List.getElem?_eq_some_iff.mp hget).1
  have hsound := hcons.calls i call hget
  have hfilled : (system.answer i call result).Sound base64 sspi i (call.fill result) := by
    unfold RouterCall.fill
    split
    next deadline hphase =>
      exact ⟨hsound.1, _, List.mem_append_right _ (List.mem_singleton_self _), rfl, rfl, rfl,
        hsound.1⟩
    next hother =>
      exact hext.sound base64 sspi hsound (hpending i) fun deadline hphase =>
        absurd hphase (hother deadline)
  refine { hcons with stores := ?_, answers := ?_, pending := ?_, calls := ?_ }
  · intro stored hmem
    obtain ⟨hpast, answer, hanswer, hmatch⟩ := hcons.stores stored hmem
    exact ⟨hpast, answer, List.mem_append_left _ hanswer, hmatch⟩
  · intro answer hmem
    refine ⟨?_, Nat.lt_of_lt_of_eq ?_ List.length_set.symm⟩
    · rcases List.mem_append.mp hmem with hold | hnew
      · exact (hcons.answers answer hold).1
      · exact (List.mem_singleton.mp hnew) ▸ le_rfl
    · rcases List.mem_append.mp hmem with hold | hnew
      · exact (hcons.answers answer hold).2
      · exact (List.mem_singleton.mp hnew) ▸ hlt
  · exact fun j hmem => (hcons.pending j (hpending j hmem)).trans_eq List.length_set.symm
  · intro j party hparty
    rcases getElem?_set_cases hparty with ⟨rfl, rfl⟩ | ⟨hne, hold⟩
    · exact hfilled
    · refine hext.sound base64 sspi (hcons.calls j party hold) (hpending j) ?_
      intro _ _ answer hmem heq
      rcases List.mem_append.mp hmem with hbefore | hnew
      · exact hbefore
      · exact absurd (heq ▸ congrArg Answer.call (List.mem_singleton.mp hnew)) hne

/-- The thread stops: whoever waits learns that no answer will come. -/
theorem Consistent.stop (hcons : system.Consistent base64 sspi) :
    Consistent base64 sspi
      { system with
        resolver := .stopped, queue := [], calls := system.calls.map RouterCall.dropReply } := by
  have hext : system.Extends
      { system with
        resolver := .stopped, queue := [], calls := system.calls.map RouterCall.dropReply } :=
    .of_history rfl le_rfl rfl rfl
  refine { hcons with answers := ?_, pending := fun _ hmem => absurd hmem List.not_mem_nil
                      calls := ?_ }
  · exact fun answer hmem => ⟨(hcons.answers answer hmem).1,
      (hcons.answers answer hmem).2.trans_eq (List.length_map _).symm⟩
  · intro j party hparty
    rw [List.getElem?_map] at hparty
    obtain ⟨call, hget, rfl⟩ := Option.map_eq_some_iff.mp hparty
    have hsound := hcons.calls j call hget
    unfold RouterCall.dropReply
    split
    next deadline hphase =>
      obtain ⟨hpast, hwaiting⟩ := hsound
      rw [hphase] at hwaiting
      exact ⟨hpast, hwaiting.2, List.not_mem_nil⟩
    next hother =>
      exact hext.sound base64 sspi hsound (fun hmem => absurd hmem List.not_mem_nil)
        fun deadline hphase => absurd hphase (hother deadline)

theorem Consistent.tick (hcons : system.Consistent base64 sspi) (elapsed : Nat) :
    Consistent base64 sspi { system with now := system.now + elapsed } := by
  have hext : system.Extends { system with now := system.now + elapsed } :=
    .of_history rfl (Nat.le_add_right _ _) rfl rfl
  refine { hcons with stores := ?_, answers := ?_, calls := ?_ }
  · intro stored hmem
    obtain ⟨hpast, hanswer⟩ := hcons.stores stored hmem
    exact ⟨hpast.trans hext.now, hanswer⟩
  · intro answer hmem
    obtain ⟨hpast, hlt⟩ := hcons.answers answer hmem
    exact ⟨hpast.trans hext.now, hlt⟩
  · intro j party hparty
    exact hext.sound base64 sspi (hcons.calls j party hparty) id fun _ _ _ hmem _ => hmem

/-- The thread takes up the next job, which it owes a reply all along. -/
theorem Consistent.receive (hcons : system.Consistent base64 sspi) {rest : List Nat}
    (hidle : system.resolver = .idle) (hqueue : system.queue = i :: rest) :
    Consistent base64 sspi { system with resolver := .busy i, queue := rest } := by
  have hpending : RouterSystem.pending { system with resolver := .busy i, queue := rest } =
      system.pending := by
    rw [RouterSystem.pending, RouterSystem.pending, hidle, hqueue]
  have hext : system.Extends { system with resolver := .busy i, queue := rest } :=
    .of_history rfl le_rfl rfl rfl
  refine { hcons with pending := hpending ▸ hcons.pending, calls := ?_ }
  intro j party hparty
  exact hext.sound base64 sspi (hcons.calls j party hparty) (hpending ▸ id)
    fun _ _ _ hmem _ => hmem

theorem Consistent.moves (hcons : system.Consistent base64 sspi) {event : RouterEvent}
    (hmove : Moves base64 sspi system event next) : next.Consistent base64 sspi := by
  cases hmove with
  | tick elapsed => exact hcons.tick elapsed
  | call url => exact hcons.called url
  | own i call turn next hget hcall => exact hcons.callMoves hget hcall
  | receive i rest hidle hqueue => exact hcons.receive hidle hqueue
  | answer i call result hbusy hget => exact hcons.answer hbusy hget _
  | stop => exact hcons.stop

theorem Consistent.new (router : PacRouter) : (new router).Consistent base64 sspi where
  ttl := rfl
  bounded := Nat.zero_le _
  cached url time decision hentry := by simp [RouterSystem.new] at hentry
  stores _ hmem := absurd hmem List.not_mem_nil
  answers _ hmem := absurd hmem List.not_mem_nil
  pending _ hmem := absurd hmem List.not_mem_nil
  calls _ _ hget := by cases hget

/-- What was decided was at some time answered for this URL. -/
theorem Justified.answered {decision : PacResult}
    (hjustified : system.Justified i call (.ok decision)) :
    ∃ answer ∈ system.answers, answer.url = call.url ∧ answer.result = .ok decision := by
  rcases hjustified with ⟨answer, hmem, -, hurl, hresult, -⟩ |
    ⟨-, -, -, -, -, -, answer, hmem, hurl, hresult, -⟩
  · exact ⟨answer, hmem, hurl, hresult⟩
  · exact ⟨answer, hmem, hurl, hresult⟩

end Steps

/-- A choice is `Direct` when its choice apart from the pool is. -/
theorem eq_direct_of_map {choice : Except String (RouteChoice σ)}
    (hmap : choice.map RouteChoice.withoutPool = .ok .direct) : choice = .ok .direct := by
  cases choice with
  | error message => cases hmap
  | ok choice =>
      cases choice with
      | direct => rfl
      | upstream target => cases hmap

theorem toRouteChoice_error {routing : RoutingConfig} {pac : PacConfig}
    (hpac : routing.pac = some pac) (err : RoutingError) :
    toRouteChoice base64 sspi (.error err) routing =
      match pac.failPolicy with
      | .direct => .ok .direct
      | .error => .error ("PAC resolution failed: " ++ err.text) := by
  rw [toRouteChoice, hpac, Option.map_some, Option.getD_some]

/-- In every run of the router: a returned choice is what the lookup was mapped to,
with the upstream's pool; the lookup is a decision that the backend returned for
this URL, to this call or stored less than the TTL before, or else the resolution
of this call failed and `failPolicy` decided; and the cache is bounded. -/
theorem routes_are_answered (router : PacRouter) {events : List RouterEvent}
    {final : RouterSystem σ}
    (hrun : run (step base64 sspi) (new router) events = some final) :
    final.cache.entries.size ≤ cacheMaxEntries ∧
      ∀ (i : Nat) (call : RouterCall σ) (resolved : Except RoutingError PacResult)
        (choice : Except String (RouteChoice σ)),
        final.calls[i]? = some call → call.phase = .returned resolved choice →
          choice.map RouteChoice.withoutPool =
              toRouteChoice base64 sspi resolved router.routing ∧
            final.Justified i call resolved ∧
            (∀ err, resolved = .error err → ∀ pac, router.routing.pac = some pac →
              (pac.failPolicy = .direct ∧ choice = .ok .direct) ∨
                (pac.failPolicy = .error ∧
                  choice = .error ("PAC resolution failed: " ++ err.text))) ∧
            (∀ pac, router.routing.pac = some pac → pac.failPolicy = .error →
              choice = .ok .direct →
                ∃ answer ∈ final.answers, answer.url = call.url ∧ answer.result = .ok .direct) := by
  obtain ⟨hcons, hrouting⟩ := run_invariant
    (fun system : RouterSystem σ =>
      system.Consistent base64 sspi ∧ system.routing = router.routing)
    (fun _ _ _ hinv hstep =>
      ⟨hinv.1.moves (step_cases hstep), (step_cases hstep).routing.trans hinv.2⟩)
    ⟨.new router, rfl⟩ hrun
  refine ⟨hcons.bounded, fun i call resolved choice hget hphase => ?_⟩
  obtain ⟨-, hsound⟩ := hcons.calls i call hget
  rw [hphase] at hsound
  obtain ⟨⟨hjustified, -⟩, hchoice⟩ := hsound
  rw [hrouting] at hchoice
  refine ⟨hchoice, hjustified, ?_, ?_⟩
  · rintro err rfl pac hpac
    rw [toRouteChoice_error base64 sspi hpac] at hchoice
    cases hpolicy : pac.failPolicy with
    | direct =>
        rw [hpolicy] at hchoice
        exact .inl ⟨rfl, eq_direct_of_map hchoice⟩
    | error =>
        rw [hpolicy] at hchoice
        cases choice with
        | ok choice => cases hchoice
        | error message => exact .inr ⟨rfl, congrArg _ (Except.error.inj hchoice)⟩
  · rintro pac hpac hpolicy rfl
    cases resolved with
    | ok decision =>
        cases decision with
        | direct => exact hjustified.answered
        | proxy host port =>
            rw [toRouteChoice, pacUpstream, hpac] at hchoice
            cases hchoice
    | error err =>
        rw [toRouteChoice_error base64 sspi hpac, hpolicy] at hchoice
        cases hchoice

/-- A router with the default PAC section. -/
def sampleRouter : PacRouter :=
  { routing := { mode := .pac, pac := some {} }, backend := .ok .system, pools := none }

/-- Two calls for one URL, the second from the cache; and one that times out. -/
def cachedRun : List RouterEvent :=
  [.call ['u'], .own 0 .lookup, .own 0 .submit, .receive, .answer (.ok .direct), .own 0 .wake,
    .own 0 .store, .own 0 .choose, .tick (seconds 299), .call ['u'], .own 1 .lookup,
    .own 1 .choose, .call ['v'], .own 2 .lookup, .own 2 .submit, .tick (seconds 5),
    .own 2 .wake, .own 2 .choose]

/-- What a call was answered, and why it was refused if it did not go to the origin. -/
def answered (call : RouterCall Unit) : Option (Except RoutingError PacResult × Option String) :=
  match call.phase with
  | .returned resolved (.ok .direct) => some (resolved, none)
  | .returned resolved (.error message) => some (resolved, some message)
  | _ => none

theorem phase_of_answered {call : RouterCall Unit} {resolved : Except RoutingError PacResult}
    {message : Option String} (hanswered : answered call = some (resolved, message)) :
    call.phase = .returned resolved (message.elim (.ok .direct) .error) := by
  unfold answered at hanswered
  split at hanswered
  next hphase =>
    obtain ⟨rfl, rfl⟩ := Prod.mk.inj (Option.some.inj hanswered)
    exact hphase
  next hphase =>
    obtain ⟨rfl, rfl⟩ := Prod.mk.inj (Option.some.inj hanswered)
    exact hphase
  next => cases hanswered

/-- The first two calls go directly, as the backend decided once, and the third is refused. -/
theorem routes_are_answered_cachedRun :
    ∃ final first second third,
      run (step standardBase64 fun _ _ => ()) (new sampleRouter) cachedRun = some final ∧
      final.calls = [first, second, third] ∧
      (first.phase = .returned (.ok .direct) (.ok .direct) ∧
        final.Justified 0 first (.ok .direct)) ∧
      (second.phase = .returned (.ok .direct) (.ok .direct) ∧
        final.Justified 1 second (.ok .direct)) ∧
      third.phase = .returned (.error resolutionTimedOut)
        (.error ("PAC resolution failed: " ++ resolutionTimedOut.text)) := by
  have hcalls : (run (step standardBase64 fun _ _ => ()) (new sampleRouter : RouterSystem Unit)
      cachedRun).map (fun final => final.calls.map answered) =
        some [some (.ok .direct, none), some (.ok .direct, none), some (.error resolutionTimedOut,
          some ("PAC resolution failed: " ++ resolutionTimedOut.text))] := by
    decide +kernel
  obtain ⟨final, hfinal, hcalls⟩ := Option.map_eq_some_iff.mp hcalls
  obtain ⟨first, _, hlist, hfirst, hrest⟩ := List.map_eq_cons_iff.mp hcalls
  obtain ⟨second, _, rfl, hsecond, hrest⟩ := List.map_eq_cons_iff.mp hrest
  obtain ⟨third, _, rfl, hthird, hrest⟩ := List.map_eq_cons_iff.mp hrest
  obtain rfl := List.map_eq_nil_iff.mp hrest
  have hsound := (routes_are_answered standardBase64 _ sampleRouter hfinal).2
  have hreturned := phase_of_answered hfirst
  have hcached := phase_of_answered hsecond
  refine ⟨final, first, second, third, hfinal, hlist, ⟨hreturned, ?_⟩, ⟨hcached, ?_⟩,
    phase_of_answered hthird⟩
  · exact (hsound 0 first _ _ (by rw [hlist]; rfl) hreturned).2.1
  · exact (hsound 1 second _ _ (by rw [hlist]; rfl) hcached).2.1

end RouterSystem

end Zicade.App
