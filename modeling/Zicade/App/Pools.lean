import Zicade.App.PacRouter
import Zicade.Upstream.Dialed

/-! # The pools of a routing snapshot

The registry of a snapshot with the pools themselves, as any number of threads share
it: lookups, PAC decisions that are given a pool, and whatever goes on in each pool.
-/

namespace Zicade.App

open Zicade.Foundation Zicade.Auth Zicade.Upstream Zicade.Schema Zicade.Routing

/-- A PAC decision that went through `with_pool`, and the pool its target got. -/
structure Decision (σ : Type*) where
  resolved : Except RoutingError PacResult
  choice : RouteChoice σ
  pool : Option Nat

/-- `UpstreamPools`, where the book maps an address to a pool by its number in the order
of creation. The decisions are history. -/
structure PoolRegistry (σ ν : Type*) where
  config : Upstream.PoolConfig
  book : Std.TreeMap Text Nat := ∅
  pools : List (Upstream.UpstreamPool ν) := []
  decisions : List (Decision σ) := []

/-- A lookup and a decision hold the lock of the book throughout. -/
inductive RegistryEvent
  | get (addr : Text)
  | decide (resolved : Except RoutingError PacResult)
  | inside (pool : Nat) (event : PrewarmEvent)

namespace PoolRegistry

variable {σ ν : Type*}

/-- A decision has a pool for the address that the PAC file named, if it has one. -/
def Placed (registry : PoolRegistry σ ν) (decision : Decision σ) : Prop :=
  ∀ target, decision.choice = .upstream target →
    ∃ host port, decision.resolved = .ok (.proxy host port) ∧
      target.addr = hostPort host port ∧
      ∀ i, decision.pool = some i → registry.book[hostPort host port]? = some i

/-- What the book has it keeps, and a full book keeps nothing else. -/
structure Extends (registry next : PoolRegistry σ ν) : Prop where
  book : ∀ (addr : Text) (i : Nat), registry.book[addr]? = some i → next.book[addr]? = some i
  full : UpstreamPools.maxUpstreams ≤ registry.book.size → next.book = registry.book

variable {registry next : PoolRegistry σ ν}

theorem extends_self (registry : PoolRegistry σ ν) : registry.Extends registry :=
  ⟨fun _ _ hbook => hbook, fun _ => rfl⟩

theorem Extends.trans {last : PoolRegistry σ ν} (hnext : registry.Extends next)
    (hlast : next.Extends last) : registry.Extends last where
  book addr i hbook := hlast.book addr i (hnext.book addr i hbook)
  full hfull := (hlast.full (hnext.full hfull ▸ hfull)).trans (hnext.full hfull)

theorem Extends.placed (hextends : registry.Extends next) {decision : Decision σ}
    (hplaced : registry.Placed decision) : next.Placed decision := by
  intro target hchoice
  obtain ⟨host, port, hresolved, haddr, hpool⟩ := hplaced target hchoice
  exact ⟨host, port, hresolved, haddr, fun i hi => hextends.book _ i (hpool i hi)⟩

/-- Each pool is in the book under the address that it dials. -/
structure Kept (registry : PoolRegistry σ ν) : Prop where
  size : registry.book.size = registry.pools.length
  bounded : registry.pools.length ≤ UpstreamPools.maxUpstreams
  filed : ∀ (addr : Text) (i : Nat), registry.book[addr]? = some i →
    ∃ up : Upstream.UpstreamPool ν, registry.pools[i]? = some up ∧
      up.DialsOnly addr registry.config
  placed : ∀ decision ∈ registry.decisions, registry.Placed decision

/-- A decision that the registry has already placed is kept with the others. -/
theorem Kept.record (hkept : registry.Kept) {decision : Decision σ}
    (hplaced : registry.Placed decision) :
    Kept { registry with decisions := registry.decisions ++ [decision] } where
  size := hkept.size
  bounded := hkept.bounded
  filed := hkept.filed
  placed := by
    intro other hmem
    rcases List.mem_append.mp hmem with hold | hnew
    · exact hkept.placed other hold
    · obtain rfl := List.mem_singleton.mp hnew
      exact hplaced

theorem kept_new (config : Upstream.PoolConfig) : Kept ({ config } : PoolRegistry σ ν) where
  size := rfl
  bounded := Nat.zero_le _
  filed := by
    intro addr i hbook
    rw [Std.TreeMap.getElem?_emptyc] at hbook
    cases hbook
  placed := nofun

variable [Notify ν]

def get (registry : PoolRegistry σ ν) (addr : Text) : Option Nat × PoolRegistry σ ν :=
  match registry.book[addr]? with
  | some pool => (some pool, registry)
  | none =>
      if UpstreamPools.maxUpstreams ≤ registry.book.size then (none, registry)
      else
        (some registry.pools.length,
          { registry with
            book := registry.book.insert addr registry.pools.length
            pools := registry.pools ++ [.new addr registry.config] })

/-- `with_pool`, with the pool by its number. -/
def withPool (registry : PoolRegistry σ ν) (choice : RouteChoice σ) :
    Option Nat × PoolRegistry σ ν :=
  match choice with
  | .upstream target => registry.get target.addr
  | .direct => (none, registry)

variable (base64 : Base64) (sspi : Text → SspiPackage → σ) (routing : RoutingConfig)

/-- What the router makes of a resolved decision. -/
def decide (registry : PoolRegistry σ ν) (resolved : Except RoutingError PacResult) :
    PoolRegistry σ ν :=
  match toRouteChoice base64 sspi resolved routing with
  | .error _ => registry
  | .ok choice =>
      let (pool, registry) := registry.withPool choice
      { registry with decisions := registry.decisions ++ [⟨resolved, choice, pool⟩] }

/-- The registry holds every pool, so none is dropped. -/
def step (registry : PoolRegistry σ ν) : RegistryEvent → Option (PoolRegistry σ ν)
  | .get addr => some (registry.get addr).2
  | .decide resolved => some (registry.decide base64 sspi routing resolved)
  | .inside i event =>
      if event = .drop then none
      else
        (registry.pools[i]?.bind (·.step event)).map fun up =>
          { registry with pools := registry.pools.set i up }

/-! ## Lookups -/

/-- A lookup finds a pool, is refused because the book is full, or creates one. -/
inductive Gets (registry : PoolRegistry σ ν) (addr : Text) :
    Option Nat → PoolRegistry σ ν → Prop
  | found {i} (hbook : registry.book[addr]? = some i) : Gets registry addr (some i) registry
  | refused (hbook : registry.book[addr]? = none)
      (hfull : UpstreamPools.maxUpstreams ≤ registry.book.size) : Gets registry addr none registry
  | created (hbook : registry.book[addr]? = none)
      (hroom : registry.book.size < UpstreamPools.maxUpstreams) :
      Gets registry addr (some registry.pools.length)
        { registry with
          book := registry.book.insert addr registry.pools.length
          pools := registry.pools ++ [.new addr registry.config] }

theorem get_gets (registry : PoolRegistry σ ν) (addr : Text) :
    registry.Gets addr (registry.get addr).1 (registry.get addr).2 := by
  unfold get
  split
  next i hbook => exact .found hbook
  next hbook =>
    split
    next hfull => exact .refused hbook hfull
    next hroom => exact .created hbook (not_le.mp hroom)

variable {addr : Text} {pool : Option Nat}

theorem Gets.extends (hgets : registry.Gets addr pool next) : registry.Extends next := by
  cases hgets with
  | found hbook => exact registry.extends_self
  | refused hbook hfull => exact registry.extends_self
  | created hbook hroom =>
      refine ⟨fun other i hother => ?_, fun hfull => absurd hfull (not_le.mpr hroom)⟩
      rw [Std.TreeMap.getElem?_insert, if_neg, hother]
      intro heq
      rw [← Std.LawfulEqCmp.eq_of_compare heq, hbook] at hother
      cases hother

/-- A pool that was got is in the book from then on. -/
theorem Gets.filed {i : Nat} (hgets : registry.Gets addr (some i) next) :
    next.book[addr]? = some i := by
  cases hgets with
  | found hbook => exact hbook
  | created hbook hroom => exact Std.TreeMap.getElem?_insert_self

/-- No pool is given only when another would be one too many. -/
theorem Gets.of_none (hgets : registry.Gets addr none next) :
    registry.book[addr]? = none ∧ UpstreamPools.maxUpstreams ≤ registry.book.size := by
  cases hgets with
  | refused hbook hfull => exact ⟨hbook, hfull⟩

/-! ## What the registry keeps -/

theorem Kept.get (hkept : registry.Kept) (hgets : registry.Gets addr pool next) :
    next.Kept := by
  have hextends := hgets.extends
  cases hgets with
  | found hbook => exact hkept
  | refused hbook hfull => exact hkept
  | created hbook hroom =>
      refine ⟨?_, ?_, ?_, fun decision hmem => hextends.placed (hkept.placed decision hmem)⟩
      · have hnew : ¬ registry.book.contains addr = true := by
          rw [← Std.TreeMap.isSome_getElem?_eq_contains, hbook]
          nofun
        rw [Std.TreeMap.size_insert, if_neg hnew, hkept.size, List.length_append,
          List.length_singleton]
      · rw [List.length_append, List.length_singleton, ← hkept.size]
        exact hroom
      · intro other i hother
        rw [Std.TreeMap.getElem?_insert] at hother
        split at hother
        next heq =>
          obtain rfl := Option.some.inj hother
          obtain rfl := Std.LawfulEqCmp.eq_of_compare heq
          exact ⟨_, List.getElem?_concat_length, UpstreamPool.dialsOnly_new addr registry.config⟩
        next hne =>
          obtain ⟨up, hget, hdials⟩ := hkept.filed other i hother
          have hlt : i < registry.pools.length := (List.getElem?_eq_some_iff.mp hget).1
          exact ⟨up, (List.getElem?_append_left hlt).trans hget, hdials⟩

theorem Kept.inside (hkept : registry.Kept) {i : Nat} {event : PrewarmEvent}
    {up after : Upstream.UpstreamPool ν} (hget : registry.pools[i]? = some up)
    (hstep : up.step event = some after) :
    Kept { registry with pools := registry.pools.set i after } where
  size := hkept.size.trans (List.length_set).symm
  bounded := (List.length_set).trans_le hkept.bounded
  filed := by
    intro addr j hbook
    obtain ⟨old, hold, hdials⟩ := hkept.filed addr j hbook
    by_cases heq : i = j
    · subst heq
      obtain rfl := Option.some.inj (hget.symm.trans hold)
      have hlt : i < registry.pools.length := (List.getElem?_eq_some_iff.mp hget).1
      exact ⟨after, List.getElem?_set_self hlt, hdials.step (UpstreamPool.step_cases hstep)⟩
    · exact ⟨old, (List.getElem?_set_ne heq).trans hold, hdials⟩
  placed := hkept.placed

/-! ## Steps -/

/-- The steps of the registry: a lookup, a decision that fails, goes direct or is given
a pool, and a step inside a pool. -/
inductive Steps (registry : PoolRegistry σ ν) : RegistryEvent → PoolRegistry σ ν → Prop
  | get {addr : Text} {pool : Option Nat} {next : PoolRegistry σ ν}
      (hgets : registry.Gets addr pool next) :
      Steps registry (.get addr) next
  | failed {resolved} : Steps registry (.decide resolved) registry
  | direct {resolved} :
      Steps registry (.decide resolved)
        { registry with decisions := registry.decisions ++ [⟨resolved, .direct, none⟩] }
  | routed {host : Text} {port : UInt16} {target : UpstreamTarget σ} {pool : Option Nat}
      {next : PoolRegistry σ ν} (haddr : target.addr = hostPort host port)
      (hgets : registry.Gets target.addr pool next) :
      Steps registry (.decide (.ok (.proxy host port)))
        { next with
          decisions := next.decisions ++ [⟨.ok (.proxy host port), .upstream target, pool⟩] }
  | inside {i event up after} (hget : registry.pools[i]? = some up)
      (hstep : up.step event = some after) :
      Steps registry (.inside i event) { registry with pools := registry.pools.set i after }

section

variable {base64 sspi routing} {event : RegistryEvent}

theorem decide_cases (resolved : Except RoutingError PacResult) :
    registry.Steps (.decide resolved) (registry.decide base64 sspi routing resolved) := by
  unfold decide toRouteChoice
  split
  next => exact .failed
  next choice hchoice =>
    split at hchoice
    next =>
      obtain rfl := Except.ok.inj hchoice
      exact .direct
    next host port =>
      split at hchoice
      next => cases hchoice
      next upstream _ =>
        obtain rfl := Except.ok.inj hchoice
        exact .routed rfl (registry.get_gets _)
    next =>
      split at hchoice
      next =>
        obtain rfl := Except.ok.inj hchoice
        exact .direct
      next => cases hchoice

theorem step_cases (hstep : registry.step base64 sspi routing event = some next) :
    registry.Steps event next := by
  cases event with
  | get addr =>
      obtain rfl := Option.some.inj hstep
      exact .get (registry.get_gets addr)
  | decide resolved =>
      obtain rfl := Option.some.inj hstep
      exact decide_cases resolved
  | inside i event =>
      simp only [step] at hstep
      split at hstep
      next => cases hstep
      next =>
        obtain ⟨after, hafter, rfl⟩ := Option.map_eq_some_iff.mp hstep
        obtain ⟨up, hget, hup⟩ := Option.bind_eq_some_iff.mp hafter
        exact .inside hget hup

end

variable {event : RegistryEvent}

theorem Steps.extends (hsteps : registry.Steps event next) : registry.Extends next := by
  cases hsteps with
  | get hgets => exact hgets.extends
  | failed => exact registry.extends_self
  | direct => exact ⟨fun _ _ hbook => hbook, fun _ => rfl⟩
  | routed haddr hgets => exact ⟨hgets.extends.book, hgets.extends.full⟩
  | inside hget hstep => exact ⟨fun _ _ hbook => hbook, fun _ => rfl⟩

theorem Kept.step (hkept : registry.Kept) (hsteps : registry.Steps event next) :
    next.Kept := by
  cases hsteps with
  | get hgets => exact hkept.get hgets
  | failed => exact hkept
  | direct => exact hkept.record nofun
  | @routed host port target pool next haddr hgets =>
      refine (hkept.get hgets).record fun other hother => ?_
      obtain rfl := RouteChoice.upstream.inj hother
      refine ⟨host, port, rfl, haddr, fun i hi => ?_⟩
      obtain rfl : pool = some i := hi
      rw [← haddr]
      exact hgets.filed
  | inside hget hstep => exact hkept.inside hget hstep

/-! ## Runs -/

theorem get_of_book {addr : Text} {i : Nat} (hbook : registry.book[addr]? = some i) :
    (registry.get addr).1 = some i := by
  rw [get, hbook]

theorem get_eq_none {addr : Text} :
    (registry.get addr).1 = none ↔
      registry.book[addr]? = none ∧ UpstreamPools.maxUpstreams ≤ registry.book.size := by
  constructor
  · intro hnone
    exact (hnone ▸ registry.get_gets addr).of_none
  · rintro ⟨hbook, hfull⟩
    rw [get, hbook]
    simp only [if_pos hfull]

section

variable {base64 sspi routing} {events : List RegistryEvent}

theorem extends_of_run (hrun : run (step base64 sspi routing) registry events = some next) :
    registry.Extends next :=
  run_invariant (fun next => registry.Extends next)
    (fun _ _ _ hextends hstep => hextends.trans (step_cases hstep).extends)
    registry.extends_self hrun

theorem kept_of_run {config : Upstream.PoolConfig}
    (hrun : run (step base64 sspi routing) ({ config } : PoolRegistry σ ν) events = some next) :
    next.Kept :=
  run_invariant Kept (fun _ _ _ hkept hstep => hkept.step (step_cases hstep)) (kept_new config)
    hrun

/-- A full registry refuses every address that it has no pool for, and goes on doing so. -/
theorem refused_of_full {addr : Text} (hbook : registry.book[addr]? = none)
    (hfull : UpstreamPools.maxUpstreams ≤ registry.book.size)
    (hrun : run (step base64 sspi routing) registry events = some next) :
    (next.get addr).1 = none := by
  have hsame := (extends_of_run hrun).full hfull
  exact get_eq_none.mpr ⟨hsame ▸ hbook, hsame ▸ hfull⟩

/-- A lookup that finds or creates a pool is answered with it from then on. -/
theorem same_pool {addr : Text} {i : Nat} (hget : (registry.get addr).1 = some i)
    (hrun : run (step base64 sspi routing) (registry.get addr).2 events = some next) :
    (next.get addr).1 = some i := by
  have hgets := registry.get_gets addr
  rw [hget] at hgets
  exact get_of_book ((extends_of_run hrun).book addr i hgets.filed)

end

/-- In every run of the registry: there are at most `MAX_UPSTREAMS` pools; a lookup that
got a pool is answered with the same one ever after; once the limit is reached every
other address is refused ever after, and none is refused before; the pool of an address
dials only this address; and so does the pool of a PAC-selected target, whose address is
the one that the PAC file named. -/
theorem pools_never_cross (config : Upstream.PoolConfig) {events : List RegistryEvent}
    {final : PoolRegistry σ ν}
    (hrun : run (step base64 sspi routing) { config } events = some final) :
    final.pools.length ≤ UpstreamPools.maxUpstreams ∧
      (∀ (addr : Text) (i : Nat), (final.get addr).1 = some i → ∀ later last,
        run (step base64 sspi routing) (final.get addr).2 later = some last →
          (last.get addr).1 = some i) ∧
      (∀ addr : Text, final.book[addr]? = none →
        final.pools.length = UpstreamPools.maxUpstreams → ∀ later last,
          run (step base64 sspi routing) final later = some last → (last.get addr).1 = none) ∧
      (∀ addr : Text, (final.get addr).1 = none →
        final.book[addr]? = none ∧ final.pools.length = UpstreamPools.maxUpstreams) ∧
      (∀ (addr : Text) (i : Nat), final.book[addr]? = some i →
        ∃ up : Upstream.UpstreamPool ν, final.pools[i]? = some up ∧ up.SocketsTo addr) ∧
      ∀ decision ∈ final.decisions, ∀ target, decision.choice = .upstream target →
        ∃ host port, decision.resolved = .ok (.proxy host port) ∧
          target.addr = hostPort host port ∧
          ∀ i, decision.pool = some i → final.book[target.addr]? = some i ∧
            ∃ up : Upstream.UpstreamPool ν, final.pools[i]? = some up ∧
              up.SocketsTo (hostPort host port) := by
  have hkept : final.Kept := kept_of_run hrun
  have hfiled : ∀ (addr : Text) (i : Nat), final.book[addr]? = some i →
      ∃ up : Upstream.UpstreamPool ν, final.pools[i]? = some up ∧ up.SocketsTo addr := by
    intro addr i hbook
    obtain ⟨up, hget, hdials⟩ := hkept.filed addr i hbook
    exact ⟨up, hget, hdials.socketsTo⟩
  refine ⟨hkept.bounded, fun addr i hget later last hlater => same_pool hget hlater, ?_, ?_,
    hfiled, ?_⟩
  · intro addr hbook hfull later last hlater
    exact refused_of_full hbook (hfull.ge.trans_eq hkept.size.symm) hlater
  · intro addr hnone
    obtain ⟨hbook, hfull⟩ := get_eq_none.mp hnone
    exact ⟨hbook, hkept.bounded.antisymm (hfull.trans_eq hkept.size)⟩
  · intro decision hmem target hchoice
    obtain ⟨host, port, hresolved, haddr, hplaced⟩ := hkept.placed decision hmem target hchoice
    refine ⟨host, port, hresolved, haddr, fun i hpool => ?_⟩
    have hbook := hplaced i hpool
    exact ⟨haddr ▸ hbook, hfiled _ i hbook⟩

/-- The first take of a pool, and a second that gets the socket. -/
def secondTake : List PrewarmEvent :=
  UpstreamPool.firstTake ++ [.call true, .take 1, .take 1, .advance, .advance, .advance]

/-- Two decisions for one upstream with a lookup of another between them, and takes from
the pool that the two share. -/
def sharedPool : List RegistryEvent :=
  .decide (.ok (.proxy ['p'] 1)) :: .get ['q', ':', '2'] :: .decide (.ok (.proxy ['p'] 1)) ::
    secondTake.map (.inside 0)

theorem pools_never_cross_sharedPool :
    ∃ final : PoolRegistry Unit NotifyCell,
      run (step standardBase64 (fun _ _ => ()) RouterSystem.sampleRouter.routing)
        { config := ⟨1, seconds 9⟩ } sharedPool = some final ∧
      final.decisions.map (·.pool) = [some 0, some 0] ∧
      ∃ up : Upstream.UpstreamPool NotifyCell, final.pools[0]? = some up ∧
        up.SocketsTo ['p', ':', '1'] := by
  have hseen : (run (step standardBase64 (fun _ _ => ()) RouterSystem.sampleRouter.routing)
      ({ config := ⟨1, seconds 9⟩ } : PoolRegistry Unit NotifyCell) sharedPool).map
        (fun final => (final.decisions.map (·.pool), final.book[['p', ':', '1']]?)) =
          some ([some 0, some 0], some 0) := by
    decide +kernel
  obtain ⟨final, hfinal, hpair⟩ := Option.map_eq_some_iff.mp hseen
  obtain ⟨hpools, hbook⟩ := Prod.mk.inj hpair
  have hcross := pools_never_cross standardBase64 _ _ _ hfinal
  exact ⟨final, hfinal, hpools, hcross.2.2.2.2.1 _ 0 hbook⟩

end PoolRegistry

/-! ## The registry of the router -/

/-- The settings in the terms of the pools, which count nanoseconds. -/
def PoolSettings.durations (settings : PoolSettings) : Upstream.PoolConfig :=
  ⟨settings.minIdle.toNat, seconds settings.idleTimeout.toNat⟩

namespace PoolRegistry

variable {σ ν : Type*} {registry next : PoolRegistry σ ν} {values : UpstreamPools}

/-- The registry has a pool where the router's has its address and settings. -/
structure Mirrors (registry : PoolRegistry σ ν) (values : UpstreamPools) : Prop where
  config : registry.config = values.config.durations
  size : registry.book.size = values.pools.size
  pools : ∀ addr : Text,
    values.pools[addr]? = registry.book[addr]?.map fun _ => ⟨addr, values.config⟩

theorem mirrors_new (settings : PoolSettings) :
    Mirrors ({ config := settings.durations } : PoolRegistry σ ν) { config := settings } where
  config := rfl
  size := rfl
  pools := by
    intro addr
    rw [Std.TreeMap.getElem?_emptyc, Std.TreeMap.getElem?_emptyc]
    rfl

variable [Notify ν]

/-- The two lookups find, refuse or create the pool alike. -/
theorem Mirrors.gets (hmirrors : registry.Mirrors values) {addr : Text} {pool : Option Nat}
    (hgets : registry.Gets addr pool next) :
    (values.get addr).1 = (pool.map fun _ => ⟨addr, values.config⟩) ∧
      next.Mirrors (values.get addr).2 := by
  have hpool := hmirrors.pools addr
  unfold UpstreamPools.get
  cases hgets with
  | found hbook =>
      rw [hbook] at hpool
      rw [hpool]
      exact ⟨rfl, hmirrors⟩
  | refused hbook hfull =>
      rw [hbook] at hpool
      rw [hpool]
      simp only [Option.map_none, if_pos (hmirrors.size ▸ hfull)]
      exact ⟨trivial, hmirrors⟩
  | created hbook hroom =>
      rw [hbook] at hpool
      rw [hpool]
      simp only [Option.map_none, if_neg (not_le.mpr (hmirrors.size ▸ hroom))]
      refine ⟨rfl, hmirrors.config, ?_, ?_⟩
      · rw [Std.TreeMap.size_insert, Std.TreeMap.size_insert, hmirrors.size,
          ← Std.TreeMap.isSome_getElem?_eq_contains, ← Std.TreeMap.isSome_getElem?_eq_contains,
          hbook, hpool]
        rfl
      · intro other
        rw [Std.TreeMap.getElem?_insert, Std.TreeMap.getElem?_insert]
        split
        next heq =>
          rw [Std.LawfulEqCmp.eq_of_compare heq]
          rfl
        next => exact hmirrors.pools other

variable {base64 : Base64} {sspi : Text → SspiPackage → σ} {routing : RoutingConfig}

theorem Mirrors.decides (hmirrors : registry.Mirrors values)
    {resolved : Except RoutingError PacResult} {choice : RouteChoice σ}
    (hchoice : toRouteChoice base64 sspi resolved routing = .ok choice) :
    ∃ after, (App.withPool choice (some values)).2 = some after ∧
      (registry.decide base64 sspi routing resolved).Mirrors after := by
  simp only [decide, hchoice]
  cases choice with
  | direct => exact ⟨values, rfl, { hmirrors with }⟩
  | upstream target =>
      have hnext : (registry.get target.addr).2.Mirrors (values.get target.addr).2 :=
        (hmirrors.gets (registry.get_gets target.addr)).2
      exact ⟨_, rfl, { hnext with }⟩

/-- The router has the routing config, and the registry in place of its pools. -/
def Behind (registry : PoolRegistry σ ν) (routing : RoutingConfig) (system : RouterSystem σ) :
    Prop :=
  system.routing = routing ∧ ∃ values, system.pools = some values ∧ registry.Mirrors values

variable {system after : RouterSystem σ}

/-- A router's step decides a route, or leaves the registry alone. -/
theorem Behind.moves (hbehind : registry.Behind routing system) {event : RouterEvent}
    (hmoves : RouterSystem.Moves base64 sspi system event after) :
    ∃ events next, run (step base64 sspi routing) registry events = some next ∧
      next.Behind routing after := by
  have hrouting := hmoves.routing.trans hbehind.1
  obtain ⟨hsame, values, hpools, hmirrors⟩ := hbehind
  have hidle (hsame : after.pools = system.pools) :
      ∃ events next, run (step base64 sspi routing) registry events = some next ∧
        next.Behind routing after :=
    ⟨[], registry, rfl, hrouting, values, hsame.trans hpools, hmirrors⟩
  cases hmoves with
  | own i call turn after hget hcall =>
      cases hcall with
      | choose resolved hphase =>
          refine ⟨[.decide resolved], _, rfl, hrouting, ?_⟩
          rw [RouterSystem.choose, hsame]
          split
          next message hchoice =>
            simp only [decide, hchoice]
            exact ⟨values, hpools, hmirrors⟩
          next choice hchoice =>
            rw [hpools]
            exact hmirrors.decides hchoice
      | lookup hphase =>
          refine hidle ?_
          unfold RouterSystem.lookup
          split <;> rfl
      | submit hphase =>
          refine hidle ?_
          unfold RouterSystem.submit
          split <;> rfl
      | wake | store | abandon => exact hidle rfl
  | tick | call | receive | answer | stop => exact hidle rfl

/-- Every run of a router is one of a registry, which has a pool where the router has
its address and settings. -/
theorem registry_of_router {router : PacRouter} {settings : PoolSettings}
    (hpools : router.pools = some settings) {events : List RouterEvent}
    (hrun : run (RouterSystem.step base64 sspi) (.new router) events = some after) :
    ∃ lookups, ∃ registry : PoolRegistry σ ν,
      run (step base64 sspi router.routing)
        { config := settings.durations } lookups = some registry ∧
      registry.Behind router.routing after :=
  run_simulated (fun registry : PoolRegistry σ ν => registry.Behind router.routing)
    ⟨rfl, { config := settings }, by rw [RouterSystem.new, hpools]; rfl, mirrors_new settings⟩
    (fun _ _ _ _ hbehind hstep => hbehind.moves (RouterSystem.step_cases hstep)) hrun

end PoolRegistry

end Zicade.App
