import Mathlib.Data.List.Nodup
import Zicade.Upstream.Pool

/-! # The rules of the idle sockets

What each operation does under the lock, once, as a relation; and what it keeps: how
many sockets are parked and in what order, that each is in one place, and what an
operation that is over says of the queue it found.
-/

namespace Zicade.Upstream

open Zicade.Foundation

/-- The socket that the holder of the lock has in its hands. -/
def Critical.held : Critical → List Nat
  | .aging _ _ entry => [entry.stream]
  | .probing _ _ entry _ => [entry.stream]
  | .putting stream => [stream]
  | .parking entry => [entry.stream]
  | _ => []

namespace Pool

/-! ## Moves -/

/-- What the operation that holds the lock does in one step. -/
inductive Moves (pool : Pool) : Critical → Pool → Option Outcome → Prop
  | empty {before discarded} (hidle : pool.idle = []) :
      Moves pool (.taking before discarded) pool.leave (some (.took before [] discarded none))
  | pop {before discarded front entry} (hidle : pool.idle = front ++ [entry]) :
      Moves pool (.taking before discarded)
        ({ pool with idle := front }.enter (.aging before discarded entry)) none
  | young {before discarded entry} (hyoung : pool.config.young entry pool.now = true) :
      Moves pool (.aging before discarded entry)
        (pool.enter (.probing before discarded entry pool.now)) none
  | outdated {before discarded entry} (hold : pool.config.young entry pool.now = false) :
      Moves pool (.aging before discarded entry)
        (pool.enter (.taking before (discarded ++ [⟨entry, pool.now, none⟩]))) none
  | hand {before discarded entry time} (hsilent : pool.peerOf entry = .silent) :
      Moves pool (.probing before discarded entry time)
        { pool with handed := pool.handed ++ [entry.stream] }.leave
        (some (.took before pool.idle discarded (some ⟨entry, time, some .silent⟩)))
  | refuse {before discarded entry time} (hpeer : pool.peerOf entry ≠ .silent) :
      Moves pool (.probing before discarded entry time)
        (pool.enter (.taking before (discarded ++ [⟨entry, time, some (pool.peerOf entry)⟩]))) none
  | age {before aged entry rest} :
      Moves pool (.expiring before aged (entry :: rest))
        ({ pool with idle := pool.config.kept (aged ++ [(entry, pool.now)]) ++ rest }.enter
          (.expiring before (aged ++ [(entry, pool.now)]) rest)) none
  | aged {before aged} :
      Moves pool (.expiring before aged [])
        (pool.enter (.sifting before (before.length - pool.idle.length) aged [] pool.idle)) none
  | probe {before expired aged probed entry rest} :
      Moves pool (.sifting before expired aged probed (entry :: rest))
        ({ pool with idle := stillOpen (probed ++ [(entry, pool.peerOf entry)]) ++ rest }.enter
          (.sifting before expired aged (probed ++ [(entry, pool.peerOf entry)]) rest)) none
  | short {before expired aged probed} (hshort : pool.idle.length < pool.config.minIdle) :
      Moves pool (.sifting before expired aged probed []) pool.leave
        (some (.refreshed before pool.idle aged probed pool.now
          (.short (before.length - expired - pool.idle.length))))
  | enough {before expired aged probed} (hfull : pool.config.minIdle ≤ pool.idle.length) :
      Moves pool (.sifting before expired aged probed [])
        (pool.enter (.measuring before aged probed)) none
  | measure {before aged probed} :
      Moves pool (.measuring before aged probed) pool.leave
        (some (.refreshed before pool.idle aged probed pool.now (.full pool.nextExpiry)))
  | room {stream} (hroom : pool.idle.length < pool.config.minIdle) :
      Moves pool (.putting stream) (pool.enter (.parking ⟨stream, pool.now⟩)) none
  | noRoom {stream} (hfull : pool.config.minIdle ≤ pool.idle.length) :
      Moves pool (.putting stream) pool.leave (some (.put none))
  | park {entry} :
      Moves pool (.parking entry) { pool with idle := pool.idle ++ [entry] }.leave
        (some (.put (some entry)))

theorem advance_moves (pool : Pool) (critical : Critical) :
    pool.Moves critical (pool.advance critical).1 (pool.advance critical).2 := by
  cases critical with
  | taking before discarded =>
      simp only [advance, advanceTake]
      split
      next hnone => exact .empty (List.getLast?_eq_none_iff.mp hnone)
      next entry hlast => exact .pop (List.dropLast_append_getLast? entry hlast).symm
  | aging before discarded entry =>
      simp only [advance, advanceAge]
      split
      next hyoung => exact .young hyoung
      next hold => exact .outdated (Bool.eq_false_iff.mpr hold)
  | probing before discarded entry time =>
      simp only [advance, advanceProbe]
      split
      next hsilent => exact .hand hsilent
      next hpeer => exact .refuse hpeer
  | expiring before aged todo =>
      cases todo with
      | nil => exact .aged
      | cons entry rest => exact .age
  | sifting before expired aged probed todo =>
      cases todo with
      | nil =>
          simp only [advance, advanceSift]
          split
          next hshort => exact .short hshort
          next hfull => exact .enough (Nat.le_of_not_lt hfull)
      | cons entry rest => exact .probe
  | measuring before aged probed => exact .measure
  | putting stream =>
      simp only [advance, advancePut]
      split
      next hroom => exact .room hroom
      next hfull => exact .noRoom (Nat.le_of_not_lt hfull)
  | parking entry => exact .park

/-- A step of the pool: time passes, the upstream acts, a socket is dialed, the lock
is taken, or its holder moves on. -/
inductive Steps (pool : Pool) : PoolEvent → Pool → Prop
  | tick (elapsed : Nat) : Steps pool (.tick elapsed) { pool with now := pool.now + elapsed }
  | act {i stream peer} (hget : pool.streams[i]? = some stream) (hpeer : peer ≠ .silent) :
      Steps pool (.act i peer) { pool with streams := pool.streams.set i { stream with peer } }
  | dial (addr : Text) :
      Steps pool (.dial addr) { pool with
        streams := pool.streams ++ [{ addr }], dialed := pool.dialed ++ [pool.streams.length] }
  | lockTake (hfree : pool.critical = none) :
      Steps pool .lockTake (pool.enter (.taking pool.idle []))
  | lockRefresh (hfree : pool.critical = none) :
      Steps pool .lockRefresh (pool.enter (.expiring pool.idle [] pool.idle))
  | lockPut {stream} (hfree : pool.critical = none) (hdialed : stream ∈ pool.dialed) :
      Steps pool (.lockPut stream)
        ({ pool with dialed := pool.dialed.erase stream }.enter (.putting stream))
  | advance {critical next outcome} (hcritical : pool.critical = some critical)
      (hmoves : pool.Moves critical next outcome) : Steps pool .advance (next.record outcome)

theorem step_cases {pool next : Pool} {event : PoolEvent} (hstep : pool.step event = some next) :
    pool.Steps event next := by
  cases event with
  | tick elapsed =>
      obtain rfl := Option.some.inj hstep
      exact .tick elapsed
  | act i peer =>
      simp only [step, act] at hstep
      split at hstep
      next => cases hstep
      next => cases hstep
      next stream peer hget hpeer =>
        obtain rfl := Option.some.inj hstep
        exact .act hget hpeer
  | dial addr =>
      obtain rfl := Option.some.inj hstep
      exact .dial addr
  | lockTake =>
      simp only [step] at hstep
      split at hstep
      next hfree =>
        obtain rfl := Option.some.inj hstep
        exact .lockTake hfree
      next => cases hstep
  | lockRefresh =>
      simp only [step] at hstep
      split at hstep
      next hfree =>
        obtain rfl := Option.some.inj hstep
        exact .lockRefresh hfree
      next => cases hstep
  | lockPut stream =>
      simp only [step] at hstep
      split at hstep
      next hfree =>
        split at hstep
        next hdialed =>
          obtain rfl := Option.some.inj hstep
          exact .lockPut hfree hdialed
        next => cases hstep
      next => cases hstep
  | advance =>
      obtain ⟨critical, hcritical, rfl⟩ := Option.map_eq_some_iff.mp hstep
      exact .advance hcritical (pool.advance_moves critical)

end Pool

/-! ## What an operation has come to -/

/-- `usable`: an entry that is too old is not read from. -/
def Checked.usable (config : PoolConfig) (check : Checked) : Bool :=
  config.young check.entry check.time && check.found.all (· == .silent)

/-- A queue in the order of parking, from whose end all that was popped was unfit. -/
def PoolConfig.Popped (config : PoolConfig) (before left : List Idle) (discarded : List Checked) :
    Prop :=
  (before.map (·.since)).Pairwise (· ≤ ·) ∧
    before = left ++ (discarded.map (·.entry)).reverse ∧
    ∀ check ∈ discarded, check.usable config = false

/-- What an operation that is over says of the queue: a take popped the newest
entries until one was usable; a refresh looked at the age of every entry and read from
each that was young, and what it says is true of those it left. -/
def Outcome.Sound (config : PoolConfig) : Outcome → Prop
  | .took before after discarded got =>
      config.Popped before (after ++ (got.map (·.entry)).toList) discarded ∧
        (∀ check ∈ got, check.found = some .silent ∧ check.usable config = true) ∧
        (got = none → after = [])
  | .refreshed before after aged probed time result =>
      aged.map Prod.fst = before ∧ probed.map Prod.fst = config.kept aged ∧
        after = stillOpen probed ∧
        match result with
        | .full nextExpiry => after.length = config.minIdle ∧
            ∀ entry ∈ after, ∀ elapsed < nextExpiry, config.young entry (time + elapsed) = true
        | .short closedByPeer => after.length < config.minIdle ∧
            closedByPeer = probed.countP fun seen => seen.2 ≠ .silent
  | .put _ => True

theorem PoolConfig.Popped.discard {config : PoolConfig} {before left : List Idle}
    {discarded : List Checked} (check : Checked)
    (hpopped : config.Popped before (left ++ [check.entry]) discarded)
    (hunfit : check.usable config = false) :
    config.Popped before left (discarded ++ [check]) := by
  obtain ⟨hsorted, hbefore, hdiscarded⟩ := hpopped
  refine ⟨hsorted, by rw [hbefore]; simp, fun other hmem => ?_⟩
  rcases List.mem_append.mp hmem with hmem | hmem
  · exact hdiscarded other hmem
  · rw [List.mem_singleton.mp hmem]
    exact hunfit

/-- What the holder of the lock has done so far to the queue that it found. -/
def Critical.Progress (pool : Pool) : Critical → Prop
  | .taking before discarded => pool.config.Popped before pool.idle discarded
  | .aging before discarded entry => pool.config.Popped before (pool.idle ++ [entry]) discarded
  | .probing before discarded entry time =>
      pool.config.Popped before (pool.idle ++ [entry]) discarded ∧
        pool.config.young entry time = true
  | .expiring before aged todo =>
      pool.idle = pool.config.kept aged ++ todo ∧ before = aged.map Prod.fst ++ todo ∧
        before.length ≤ pool.config.minIdle
  | .sifting before expired aged probed todo =>
      pool.idle = stillOpen probed ++ todo ∧ aged.map Prod.fst = before ∧
        pool.config.kept aged = probed.map Prod.fst ++ todo ∧
        before.length - expired = (pool.config.kept aged).length ∧
        before.length ≤ pool.config.minIdle
  | .measuring before aged probed =>
      pool.idle = stillOpen probed ∧ aged.map Prod.fst = before ∧
        probed.map Prod.fst = pool.config.kept aged ∧
        pool.config.minIdle ≤ pool.idle.length ∧ before.length ≤ pool.config.minIdle
  | .putting _ => True
  | .parking entry =>
      pool.idle.length < pool.config.minIdle ∧ (∀ other ∈ pool.idle, other.since ≤ entry.since) ∧
        entry.since ≤ pool.now

/-- Time and the upstream change nothing that an operation has done. -/
theorem Critical.Progress.congr {pool next : Pool} {critical : Critical}
    (hprogress : critical.Progress pool) (hidle : next.idle = pool.idle)
    (hconfig : next.config = pool.config) (hnow : pool.now ≤ next.now) :
    critical.Progress next := by
  cases critical <;> simp only [Critical.Progress, hidle, hconfig] at hprogress ⊢
  case parking entry =>
    exact ⟨hprogress.1, hprogress.2.1, hprogress.2.2.trans hnow⟩
  all_goals exact hprogress

namespace Pool

/-- The queue is within its bound and in the order of parking, and the operations do
what they should. -/
structure InOrder (pool : Pool) : Prop where
  bounded : pool.idle.length ≤ pool.config.minIdle
  sorted : (pool.idle.map (·.since)).Pairwise (· ≤ ·)
  past : ∀ entry ∈ pool.idle, entry.since ≤ pool.now
  progress : ∀ critical ∈ pool.critical, critical.Progress pool
  outcomes : ∀ outcome ∈ pool.outcomes, outcome.Sound pool.config

/-- Only parking adds to the queue, and only at its end. -/
theorem Moves.idle {pool next : Pool} {critical : Critical} {outcome : Option Outcome}
    (hmoves : pool.Moves critical next outcome) (hprogress : critical.Progress pool) :
    next.idle.Sublist pool.idle ∨
      ∃ entry, critical = .parking entry ∧ next.idle = pool.idle ++ [entry] := by
  cases hmoves with
  | pop hidle =>
      left
      rw [hidle]
      exact List.sublist_append_left _ _
  | age =>
      left
      rw [hprogress.1]
      exact retained_concat_sublist ..
  | probe =>
      left
      rw [hprogress.1]
      exact retained_concat_sublist ..
  | park => exact .inr ⟨_, rfl, rfl⟩
  | _ => exact .inl (List.Sublist.refl _)

/-- None of the entries reaches the timeout before the next expiry. -/
theorem young_of_lt_nextExpiry {pool : Pool} (hpast : ∀ entry ∈ pool.idle, entry.since ≤ pool.now)
    {entry : Idle} (hmem : entry ∈ pool.idle) {elapsed : Nat} (hlt : elapsed < pool.nextExpiry) :
    pool.config.young entry (pool.now + elapsed) = true := by
  have hsince := hpast entry hmem
  unfold nextExpiry at hlt
  split at hlt
  next hnone =>
    rw [List.min?_eq_none_iff, List.map_eq_nil_iff] at hnone
    rw [hnone] at hmem
    cases hmem
  next oldest holdest =>
    have hle : oldest ≤ entry.since :=
      (List.min?_eq_some_iff.mp holdest).2 _ (List.mem_map_of_mem hmem)
    rw [PoolConfig.young, decide_eq_true_eq]
    omega

theorem progress_onward {config : PoolConfig} {next : Pool} {after : Critical}
    (hcritical : next.critical = some after) (hprogress : after.Progress next) :
    (∀ after ∈ next.critical, after.Progress next) ∧
      ∀ ended ∈ (none : Option Outcome), ended.Sound config := by
  refine ⟨fun other hother => ?_, nofun⟩
  obtain rfl := Option.some.inj (hcritical.symm.trans hother)
  exact hprogress

theorem sound_last {config : PoolConfig} {next : Pool} {ended : Outcome}
    (hcritical : next.critical = none) (hsound : ended.Sound config) :
    (∀ after ∈ next.critical, after.Progress next) ∧
      ∀ other ∈ some ended, other.Sound config := by
  refine ⟨fun after hafter => ?_, fun other hother => ?_⟩
  · cases hcritical.symm.trans hafter
  · obtain rfl := Option.some.inj hother
    exact hsound

/-- A step under the lock carries the operation on, and what it says at its end is
true. -/
theorem Moves.progress {pool next : Pool} {critical : Critical} {outcome : Option Outcome}
    (hmoves : pool.Moves critical next outcome) (hprogress : critical.Progress pool)
    (hinOrder : pool.InOrder) :
    (∀ after ∈ next.critical, after.Progress next) ∧
      ∀ ended ∈ outcome, ended.Sound pool.config := by
  cases hmoves with
  | empty hidle =>
      change pool.config.Popped _ _ _ at hprogress
      rw [hidle] at hprogress
      exact sound_last rfl ⟨hprogress, by simp, fun _ => rfl⟩
  | pop hidle =>
      change pool.config.Popped _ _ _ at hprogress
      rw [hidle] at hprogress
      exact progress_onward rfl hprogress
  | young hyoung => exact progress_onward rfl ⟨hprogress, hyoung⟩
  | outdated hold =>
      exact progress_onward rfl
        (PoolConfig.Popped.discard ⟨_, _, _⟩ hprogress (by simp [Checked.usable, enter, hold]))
  | hand hsilent =>
      obtain ⟨hpopped, hyoung⟩ := hprogress
      exact sound_last rfl ⟨hpopped, by simp [Checked.usable, hyoung], by simp⟩
  | refuse hpeer =>
      exact progress_onward rfl (hprogress.1.discard ⟨_, _, _⟩ (by simp [Checked.usable, hpeer]))
  | age => exact progress_onward rfl ⟨rfl, by simp [hprogress.2.1], hprogress.2.2⟩
  | @aged before aged =>
      obtain ⟨hidle, hbefore, hbounded⟩ := hprogress
      rw [List.append_nil] at hidle hbefore
      refine progress_onward rfl ⟨rfl, hbefore.symm, hidle.symm, ?_, hbounded⟩
      have hlength := length_retained pool.config.young aged
      rw [← PoolConfig.kept, ← hidle] at hlength
      have haged : before.length = aged.length := by rw [hbefore, List.length_map]
      change before.length - (before.length - pool.idle.length) = (pool.config.kept aged).length
      rw [← hidle]
      omega
  | probe =>
      obtain ⟨hidle, hbefore, hkept, hexpired⟩ := hprogress
      refine progress_onward rfl ⟨rfl, hbefore, ?_, hexpired⟩
      change pool.config.kept _ = _
      rw [hkept, List.map_append, List.append_assoc]
      rfl
  | @short before expired aged probed hshort =>
      obtain ⟨hidle, hbefore, hkept, hexpired, -⟩ := hprogress
      rw [List.append_nil] at hidle hkept
      refine sound_last rfl ⟨hbefore, hkept.symm, hidle, hshort, ?_⟩
      have hlength := length_retained (fun (_ : Idle) peer => decide (peer = Peer.silent)) probed
      rw [← stillOpen, ← hidle] at hlength
      have hcount : (probed.countP fun seen => !decide (seen.2 = Peer.silent)) =
          probed.countP fun seen => decide (seen.2 ≠ Peer.silent) := by
        simp
      rw [hexpired, hkept, List.length_map]
      omega
  | @enough before expired aged probed hfull =>
      obtain ⟨hidle, hbefore, hkept, -, hbounded⟩ := hprogress
      rw [List.append_nil] at hidle hkept
      exact progress_onward rfl ⟨hidle, hbefore, hkept.symm, hfull, hbounded⟩
  | measure =>
      obtain ⟨hidle, hbefore, hkept, hfull, -⟩ := hprogress
      exact sound_last rfl ⟨hbefore, hkept, hidle, hinOrder.bounded.antisymm hfull,
        fun entry hmem elapsed hlt => young_of_lt_nextExpiry hinOrder.past hmem hlt⟩
  | room hroom => exact progress_onward rfl ⟨hroom, hinOrder.past, le_rfl⟩
  | noRoom hfull => exact sound_last rfl trivial
  | park => exact sound_last rfl trivial

/-- The fields that no step under the lock changes. -/
theorem Moves.same {pool next : Pool} {critical : Critical} {outcome : Option Outcome}
    (hmoves : pool.Moves critical next outcome) :
    next.config = pool.config ∧ next.now = pool.now ∧ next.outcomes = pool.outcomes ∧
      next.streams = pool.streams ∧ next.dialed = pool.dialed ∧ next.addr = pool.addr := by
  cases hmoves <;> exact ⟨rfl, rfl, rfl, rfl, rfl, rfl⟩

theorem InOrder.record {pool next : Pool} {critical : Critical} {outcome : Option Outcome}
    (hinOrder : pool.InOrder) (hcritical : pool.critical = some critical)
    (hmoves : pool.Moves critical next outcome) : (next.record outcome).InOrder := by
  have hprogress := hinOrder.progress critical hcritical
  obtain ⟨hafter, hended⟩ := hmoves.progress hprogress hinOrder
  obtain ⟨hconfig, hnow, houtcomes, -⟩ := hmoves.same
  have houtcomes : ∀ ended ∈ next.outcomes ++ outcome.toList, ended.Sound next.config := by
    intro ended hmem
    rw [hconfig]
    rcases List.mem_append.mp hmem with hmem | hmem
    · exact hinOrder.outcomes ended (houtcomes ▸ hmem)
    · exact hended ended (Option.mem_toList.mp hmem)
  rcases hmoves.idle hprogress with hsublist | ⟨entry, rfl, hidle⟩
  · refine ⟨?_, ?_, ?_, hafter, houtcomes⟩
    · exact hsublist.length_le.trans (hconfig.symm ▸ hinOrder.bounded)
    · exact hinOrder.sorted.sublist (hsublist.map _)
    · exact fun other hmem => hnow.symm ▸ hinOrder.past other (hsublist.subset hmem)
  · obtain ⟨hroom, hlast, hpast⟩ := hprogress
    refine ⟨?_, ?_, ?_, hafter, houtcomes⟩
    · change next.idle.length ≤ next.config.minIdle
      rw [hidle, hconfig, List.length_append, List.length_singleton]
      exact hroom
    · change (next.idle.map (·.since)).Pairwise (· ≤ ·)
      rw [hidle, List.map_append, List.pairwise_append]
      exact ⟨hinOrder.sorted, List.pairwise_singleton _ _, by simpa using hlast⟩
    · intro other hmem
      change other ∈ next.idle at hmem
      change other.since ≤ next.now
      rw [hnow]
      rw [hidle, List.mem_append, List.mem_singleton] at hmem
      rcases hmem with hmem | rfl
      · exact hinOrder.past other hmem
      · exact hpast

theorem InOrder.step {pool next : Pool} {event : PoolEvent} (hinOrder : pool.InOrder)
    (hsteps : pool.Steps event next) : next.InOrder := by
  obtain ⟨hbounded, hsorted, hpast, hprogress, houtcomes⟩ := hinOrder
  cases hsteps with
  | tick elapsed =>
      exact ⟨hbounded, hsorted, fun entry hmem => (hpast entry hmem).trans (Nat.le_add_right _ _),
        fun critical hcritical => (hprogress critical hcritical).congr rfl rfl
          (Nat.le_add_right _ _), houtcomes⟩
  | act hget hpeer =>
      exact ⟨hbounded, hsorted, hpast,
        fun critical hcritical => (hprogress critical hcritical).congr rfl rfl le_rfl, houtcomes⟩
  | dial addr =>
      exact ⟨hbounded, hsorted, hpast,
        fun critical hcritical => (hprogress critical hcritical).congr rfl rfl le_rfl, houtcomes⟩
  | lockTake hfree =>
      refine ⟨hbounded, hsorted, hpast, fun critical hcritical => ?_, houtcomes⟩
      obtain rfl := Option.some.inj hcritical
      exact ⟨hsorted, by simp [enter], by simp⟩
  | lockRefresh hfree =>
      refine ⟨hbounded, hsorted, hpast, fun critical hcritical => ?_, houtcomes⟩
      obtain rfl := Option.some.inj hcritical
      exact ⟨rfl, rfl, hbounded⟩
  | lockPut hfree hdialed =>
      refine ⟨hbounded, hsorted, hpast, fun critical hcritical => ?_, houtcomes⟩
      obtain rfl := Option.some.inj hcritical
      trivial
  | advance hcritical hmoves =>
      exact InOrder.record ⟨hbounded, hsorted, hpast, hprogress, houtcomes⟩ hcritical hmoves

/-- A refresh that says the queue is full leaves it at the watermark. -/
theorem Moves.length_of_full {pool next : Pool} {critical : Critical} {before after : List Idle}
    {aged : List (Idle × Nat)} {probed : List (Idle × Peer)} {time nextExpiry : Nat}
    (hmoves : pool.Moves critical next
      (some (.refreshed before after aged probed time (.full nextExpiry))))
    (hprogress : critical.Progress pool) (hinOrder : pool.InOrder) :
    next.idle.length = next.config.minIdle := by
  cases hmoves with
  | measure => exact hinOrder.bounded.antisymm hprogress.2.2.2.1

/-! ## Kinds of operations -/

end Pool

inductive Kind
  | take
  | refresh
  | put
  deriving DecidableEq, Repr

def Critical.kind : Critical → Kind
  | .taking .. | .aging .. | .probing .. => .take
  | .expiring .. | .sifting .. | .measuring .. => .refresh
  | .putting _ | .parking _ => .put

/-- The take that holds the lock has popped an entry. -/
def Critical.hasPopped : Critical → Bool
  | .taking _ discarded => !discarded.isEmpty
  | .aging .. | .probing .. => true
  | _ => false

def Outcome.kind : Outcome → Kind
  | .took .. => .take
  | .refreshed .. => .refresh
  | .put _ => .put

namespace Pool

theorem Moves.kind_onward {pool next : Pool} {critical : Critical}
    (hmoves : pool.Moves critical next none) :
    ∃ after, next.critical = some after ∧ after.kind = critical.kind := by
  cases hmoves <;> exact ⟨_, rfl, rfl⟩

theorem Moves.kind_last {pool next : Pool} {critical : Critical} {outcome : Outcome}
    (hmoves : pool.Moves critical next (some outcome)) :
    next.critical = none ∧ outcome.kind = critical.kind := by
  cases hmoves <;> exact ⟨rfl, rfl⟩

theorem Moves.hasPopped {pool next : Pool} {critical after : Critical}
    (hmoves : pool.Moves critical next none) (hkind : critical.kind = .take)
    (hafter : next.critical = some after) : after.hasPopped = true := by
  cases hmoves with
  | pop => exact Option.some.inj hafter ▸ rfl
  | young => exact Option.some.inj hafter ▸ rfl
  | outdated => exact Option.some.inj hafter ▸ by simp [Critical.hasPopped]
  | refuse => exact Option.some.inj hafter ▸ by simp [Critical.hasPopped]
  | _ => cases hkind

/-! ## Each socket is in one place -/

/-- Where sockets are: parked, in hand, dialed and not parked yet, or handed out. -/
def places (pool : Pool) : List Nat :=
  pool.idle.map (·.stream) ++
    ((pool.critical.map Critical.held).getD [] ++ (pool.dialed ++ pool.handed))

/-- No socket is in two places, and every one was dialed. -/
structure Placed (pool : Pool) : Prop where
  once : pool.places.Nodup
  known : ∀ stream ∈ pool.places, stream < pool.streams.length

theorem count_places (pool : Pool) (stream : Nat) :
    pool.places.count stream =
      (pool.idle.map (·.stream)).count stream +
        (((pool.critical.map Critical.held).getD []).count stream +
          (pool.dialed.count stream + pool.handed.count stream)) := by
  rw [places, List.count_append, List.count_append, List.count_append]

/-- An operation moves sockets on or closes them. -/
theorem Moves.places {pool next : Pool} {critical : Critical} {outcome : Option Outcome}
    (hmoves : pool.Moves critical next outcome) (hcritical : pool.critical = some critical)
    (hprogress : critical.Progress pool) : next.places.Subperm pool.places := by
  refine List.subperm_ext_iff.mpr fun stream _ => ?_
  rw [count_places, count_places, hcritical]
  rcases hmoves.idle hprogress with hsublist | ⟨entry, rfl, hidle⟩
  · have hidle := (hsublist.map (·.stream)).count_le stream
    cases hmoves with
    | pop hback =>
        simp only [enter, Critical.held, hback, Option.map_some, Option.getD_some,
          List.map_append, List.map_cons, List.map_nil, List.count_append, List.count_nil]
        omega
    | hand hsilent =>
        simp only [leave, Critical.held, Option.map_some, Option.map_none, Option.getD_some,
          Option.getD_none, List.count_append, List.count_nil]
        omega
    | _ =>
        simp only [enter, leave, Critical.held, Option.map_some, Option.map_none,
          Option.getD_some, Option.getD_none, List.count_nil] at hidle ⊢
        omega
  · cases hmoves
    simp only [leave, Critical.held, Option.map_some, Option.map_none, Option.getD_some,
      Option.getD_none, List.map_append, List.map_cons, List.map_nil, List.count_append,
      List.count_nil]
    omega

theorem Placed.of_subperm {pool next : Pool} (hplaced : pool.Placed)
    (hplaces : next.places.Subperm pool.places)
    (hstreams : pool.streams.length ≤ next.streams.length) : next.Placed where
  once := by
    obtain ⟨places, hperm, hsublist⟩ := hplaces
    exact hperm.nodup_iff.mp (hplaced.once.sublist hsublist)
  known := fun stream hmem => (hplaced.known stream (hplaces.subset hmem)).trans_le hstreams

theorem Placed.dial {pool : Pool} (hplaced : pool.Placed) (addr : Text) :
    Placed { pool with
      streams := pool.streams ++ [{ addr }], dialed := pool.dialed ++ [pool.streams.length] } where
  once := by
    refine List.nodup_iff_count_le_one.mpr fun stream => ?_
    have honce := List.nodup_iff_count_le_one.mp hplaced.once stream
    rw [count_places] at honce ⊢
    dsimp only
    rw [List.count_append, List.count_singleton]
    split
    next hnew =>
      have hfree : pool.places.count stream = 0 := by
        refine List.count_eq_zero.mpr fun hmem => ?_
        exact (hplaced.known stream hmem).ne (eq_of_beq hnew).symm
      rw [count_places] at hfree
      omega
    next => exact honce
  known := by
    intro stream hmem
    rw [List.length_append, List.length_singleton]
    have hold : stream ∈ pool.places ∨ stream = pool.streams.length := by
      simp only [places, List.mem_append, List.mem_singleton] at hmem ⊢
      tauto
    rcases hold with hold | rfl
    · exact (hplaced.known stream hold).trans (Nat.lt_succ_self _)
    · exact Nat.lt_succ_self _

theorem Placed.step {pool next : Pool} {event : PoolEvent} (hplaced : pool.Placed)
    (hinOrder : pool.InOrder) (hsteps : pool.Steps event next) : next.Placed := by
  cases hsteps with
  | tick elapsed => exact ⟨hplaced.once, hplaced.known⟩
  | act hget hpeer =>
      exact hplaced.of_subperm (List.Subperm.refl _) (by rw [List.length_set])
  | dial addr =>
      exact hplaced.dial addr
  | lockTake hfree =>
      refine hplaced.of_subperm (List.subperm_ext_iff.mpr fun stream _ => ?_) le_rfl
      simp [count_places, enter, Critical.held, hfree]
  | lockRefresh hfree =>
      refine hplaced.of_subperm (List.subperm_ext_iff.mpr fun stream _ => ?_) le_rfl
      simp [count_places, enter, Critical.held, hfree]
  | @lockPut parked hfree hdialed =>
      refine hplaced.of_subperm (List.subperm_ext_iff.mpr fun stream _ => ?_) le_rfl
      have hcount := (List.perm_cons_erase hdialed).count_eq stream
      rw [← List.singleton_append, List.count_append] at hcount
      simp only [count_places, enter, Critical.held, hfree, Option.map_some, Option.map_none,
        Option.getD_some, Option.getD_none, List.count_nil]
      omega
  | advance hcritical hmoves =>
      have hprogress := hinOrder.progress _ hcritical
      obtain ⟨-, -, -, hstreams, -⟩ := hmoves.same
      exact hplaced.of_subperm (hmoves.places hcritical hprogress) (by rw [← hstreams]; rfl)

/-! ## Handed out once -/

end Pool

/-- The socket that an operation handed out. -/
def Outcome.handedOut : Outcome → Option Nat
  | .took _ _ _ got => got.map (·.entry.stream)
  | _ => none

namespace Pool

/-- The sockets handed out are those that takes returned, in order. -/
def Ledger (pool : Pool) : Prop := pool.handed = pool.outcomes.filterMap Outcome.handedOut

theorem Moves.handed {pool next : Pool} {critical : Critical} {outcome : Option Outcome}
    (hmoves : pool.Moves critical next outcome) :
    next.handed = pool.handed ++ outcome.toList.filterMap Outcome.handedOut := by
  cases hmoves with
  | hand hsilent => rfl
  | _ => exact (List.append_nil _).symm

theorem Ledger.step {pool next : Pool} {event : PoolEvent} (hledger : pool.Ledger)
    (hsteps : pool.Steps event next) : next.Ledger := by
  cases hsteps with
  | @advance critical next outcome hcritical hmoves =>
      obtain ⟨-, -, houtcomes, -⟩ := hmoves.same
      change next.handed = (next.outcomes ++ outcome.toList).filterMap Outcome.handedOut
      rw [List.filterMap_append, houtcomes, ← hledger, hmoves.handed]
  | _ => exact hledger

theorem Steps.handed {pool next : Pool} {event : PoolEvent} (hsteps : pool.Steps event next) :
    pool.handed ⊆ next.handed := by
  cases hsteps with
  | advance hcritical hmoves =>
      rw [Pool.record, hmoves.handed]
      exact List.subset_append_left _ _
  | _ => exact fun _ hmem => hmem

theorem Steps.config {pool next : Pool} {event : PoolEvent} (hsteps : pool.Steps event next) :
    next.config = pool.config := by
  cases hsteps with
  | advance hcritical hmoves => exact hmoves.same.1
  | _ => rfl

/-! ## Every run -/

/-- What every reachable pool keeps. -/
structure Lawful (config : PoolConfig) (pool : Pool) : Prop where
  config_eq : pool.config = config
  inOrder : pool.InOrder
  placed : pool.Placed
  ledger : pool.Ledger

theorem Lawful.step {config : PoolConfig} {pool next : Pool} {event : PoolEvent}
    (hlawful : pool.Lawful config) (hsteps : pool.Steps event next) : next.Lawful config :=
  ⟨hsteps.config.trans hlawful.config_eq, hlawful.inOrder.step hsteps,
    hlawful.placed.step hlawful.inOrder hsteps, hlawful.ledger.step hsteps⟩

theorem lawful_new (addr : Text) (config : PoolConfig) : Lawful config { addr, config } where
  config_eq := rfl
  inOrder := ⟨Nat.zero_le _, List.Pairwise.nil, by simp, by simp, by simp⟩
  placed := ⟨List.nodup_nil, by simp [places]⟩
  ledger := rfl

theorem Placed.not_idle {pool : Pool} (hplaced : pool.Placed) {stream : Nat}
    (hhanded : stream ∈ pool.handed) : stream ∉ pool.idle.map (·.stream) := by
  have honce := hplaced.once
  rw [places, List.nodup_append] at honce
  intro hidle
  refine honce.2.2 stream hidle stream ?_ rfl
  exact List.mem_append_right _ (List.mem_append_right _ hhanded)

/-- In whatever order takes, refreshes, puts, dials, the clock and the upstream move:
the queue is within its bound and in the order of parking, no socket is handed out
twice or is ever parked again, and every operation did what it says. -/
theorem idle_sockets_lawful (addr : Text) (config : PoolConfig) {events more : List PoolEvent}
    {pool later : Pool} (hrun : run step { addr, config } events = some pool)
    (hlater : run step pool more = some later) :
    pool.idle.length ≤ config.minIdle ∧
      (pool.idle.map (·.since)).Pairwise (· ≤ ·) ∧
      pool.handed = pool.outcomes.filterMap Outcome.handedOut ∧ pool.handed.Nodup ∧
      (∀ stream ∈ pool.handed, stream ∉ later.idle.map (·.stream)) ∧
      ∀ outcome ∈ pool.outcomes, outcome.Sound config := by
  have hlawful : pool.Lawful config :=
    run_invariant (Lawful config) (fun _ _ _ hinv hstep => hinv.step (step_cases hstep))
      (lawful_new addr config) hrun
  have hfuture : later.Lawful config ∧ pool.handed ⊆ later.handed :=
    run_invariant (fun later => later.Lawful config ∧ pool.handed ⊆ later.handed)
      (fun _ _ _ hinv hstep =>
        ⟨hinv.1.step (step_cases hstep), fun _ hmem => (step_cases hstep).handed (hinv.2 hmem)⟩)
      ⟨hlawful, fun _ hmem => hmem⟩ hlater
  obtain ⟨hconfig, hinOrder, hplaced, hledger⟩ := hlawful
  subst hconfig
  refine ⟨hinOrder.bounded, hinOrder.sorted, hledger, ?_, fun stream hmem => ?_,
    hinOrder.outcomes⟩
  · have honce := hplaced.once
    rw [places, List.nodup_append, List.nodup_append, List.nodup_append] at honce
    exact honce.2.1.2.1.2.1
  · exact hfuture.1.placed.not_idle (hfuture.2 hmem)

/-- Three sockets are parked and the newest is closed while parked; a take discards it
and hands out the one before. -/
def takePastClosed : List PoolEvent :=
  [.dial ['p'], .dial ['p'], .dial ['p'], .lockPut 0, .advance, .advance, .lockPut 1, .advance,
    .advance, .tick 1, .lockPut 2, .advance, .advance, .act 2 .closed, .lockTake, .advance,
    .advance, .advance, .advance, .advance, .advance]

def afterTakePastClosed : Pool where
  addr := ['p']
  config := ⟨3, 5⟩
  streams := [{ addr := ['p'] }, { addr := ['p'] }, ⟨['p'], .closed⟩]
  idle := [⟨0, 0⟩]
  now := 1
  handed := [1]
  outcomes := [.put (some ⟨0, 0⟩), .put (some ⟨1, 0⟩), .put (some ⟨2, 1⟩),
    .took [⟨0, 0⟩, ⟨1, 0⟩, ⟨2, 1⟩] [⟨0, 0⟩] [⟨⟨2, 1⟩, 1, some .closed⟩]
      (some ⟨⟨1, 0⟩, 1, some .silent⟩)]

theorem idle_sockets_lawful_takePastClosed :
    run step { addr := ['p'], config := ⟨3, 5⟩ } takePastClosed = some afterTakePastClosed ∧
      (∀ stream ∈ afterTakePastClosed.handed, stream ∉ [0]) ∧
      ∀ outcome ∈ afterTakePastClosed.outcomes, outcome.Sound ⟨3, 5⟩ := by
  have hrun : run step { addr := ['p'], config := ⟨3, 5⟩ } takePastClosed =
      some afterTakePastClosed := rfl
  have hlater : run step afterTakePastClosed [.tick 3] =
      some { afterTakePastClosed with now := 4 } := rfl
  obtain ⟨-, -, -, -, hgone, hsound⟩ := idle_sockets_lawful _ _ hrun hlater
  exact ⟨hrun, hgone, hsound⟩

end Pool

end Zicade.Upstream
