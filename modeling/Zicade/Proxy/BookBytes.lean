import Zicade.Proxy.BookLaws

/-! # The bytes in the book

The bytes of a connection are counted twice: first in its entry, then in the total of
the direction they went. What the totals miss is what such calls still have to add,
and a record in the history has the last count of its entry.
-/

namespace Zicade.Proxy.Book

open Zicade.Foundation

/-- Up is out of the proxy, towards the origin; down is into it, towards the client. -/
inductive Direction
  | up
  | down
  deriving DecidableEq, Repr

variable (direction : Direction)

def Entry.bytes (entry : Entry) : Nat :=
  match direction with
  | .up => entry.up
  | .down => entry.down

def ConnectionSnapshot.bytes (record : ConnectionSnapshot) : Nat :=
  match direction with
  | .up => record.bytesUp
  | .down => record.bytesDown

def Added.bytes (added : Added) : Nat :=
  match direction with
  | .up => added.bytesOut
  | .down => added.bytesIn

/-- The proxy-wide total. -/
def Tracker.total (tracker : Tracker) : Nat :=
  match direction with
  | .up => tracker.bytesOut
  | .down => tracker.bytesIn

/-- What a call that is under way still adds to the total. -/
def Op.pending : Op → Nat
  | .addTotals inbound outbound =>
      match direction with
      | .up => outbound
      | .down => inbound
  | _ => 0

def Conn.pending (conn : Conn) : Nat := (conn.ops.map (Op.pending direction)).sum

def Tracker.pending (tracker : Tracker) : Nat :=
  (tracker.conns.map (Conn.pending direction)).sum

/-- The bytes of all connections ever started. -/
def Tracker.counted (tracker : Tracker) : Nat :=
  (tracker.conns.map fun conn => conn.entry.bytes direction).sum

/-- No add is between its two bumps. -/
def Tracker.AllAdded (tracker : Tracker) : Prop :=
  ∀ conn ∈ tracker.conns, ∀ inbound outbound, .addTotals inbound outbound ∉ conn.ops

theorem Tracker.pending_of_allAdded {tracker : Tracker} (hadded : tracker.AllAdded) :
    tracker.pending direction = 0 := by
  have hconn : ∀ conn ∈ tracker.conns, conn.pending direction = 0 := by
    intro conn hmem
    refine List.sum_eq_zero fun n hn => ?_
    obtain ⟨op, hop, rfl⟩ := List.mem_map.mp hn
    cases op with
    | addTotals inbound outbound => exact absurd hop (hadded conn hmem inbound outbound)
    | thenOpen => rfl
    | failCount reason => rfl
    | failState reason => rfl
  refine List.sum_eq_zero fun n hn => ?_
  obtain ⟨conn, hmem, rfl⟩ := List.mem_map.mp hn
  exact hconn conn hmem

/-! ## One connection -/

variable {direction}

theorem Entry.bytes_setOpen (entry : Entry) : entry.setOpen.bytes direction =
    entry.bytes direction := by
  unfold setOpen
  split <;> rfl

theorem Entry.bytes_setStatus (entry : Entry) (status : Nat) :
    (entry.setStatus status).bytes direction = entry.bytes direction := by
  unfold setStatus
  split <;> rfl

theorem Entry.bytes_markClosed (entry : Entry) : entry.markClosed.bytes direction =
    entry.bytes direction := by
  unfold markClosed
  split <;> rfl

namespace Conn

variable {conn after : Conn} {added : Added}

/-- What a step counts in the entry it adds to the total, now or in the same call later. -/
def Accounts (direction : Direction) (conn after : Conn) (added : Added) : Prop :=
  after.entry.bytes direction + conn.pending direction =
    conn.entry.bytes direction + after.pending direction + added.bytes direction

theorem accounts_life (conn : Conn) (life : Life) :
    Accounts direction conn { conn with life } {} := by
  cases direction <;> rfl

theorem pending_concat (conn : Conn) (entry : Entry) (op : Op) :
    ({ conn with entry, ops := conn.ops ++ [op] } : Conn).pending direction =
      conn.pending direction + op.pending direction := by
  rw [pending, List.map_append, List.sum_append, List.map_singleton, List.sum_singleton, pending]

theorem pending_eraseIdx {i : Nat} {op : Op} (hop : conn.ops[i]? = some op) (entry : Entry) :
    ({ conn with entry, ops := conn.ops.eraseIdx i } : Conn).pending direction +
      op.pending direction = conn.pending direction :=
  sum_map_eraseIdx (Op.pending direction) hop

theorem resume_accounts {i : Nat} (hresume : conn.resume i = some (after, added)) :
    Accounts direction conn after added := by
  unfold resume at hresume
  split at hresume
  next inbound outbound hop =>
    obtain ⟨rfl, rfl⟩ := Prod.mk.inj (Option.some.inj hresume)
    rw [Accounts, ← pending_eraseIdx hop conn.entry]
    cases direction <;> simp only [Op.pending, Added.bytes] <;> omega
  next hop =>
    obtain ⟨rfl, rfl⟩ := Prod.mk.inj (Option.some.inj hresume)
    rw [Accounts, ← pending_eraseIdx hop conn.entry.setOpen, Entry.bytes_setOpen]
    cases direction <;> rfl
  next reason hop =>
    obtain ⟨rfl, rfl⟩ := Prod.mk.inj (Option.some.inj hresume)
    have hsame :
        ({ conn with ops := conn.ops.set i (.failState reason) } : Conn).pending direction =
          conn.pending direction := sum_map_set (Op.pending direction) hop (.failState reason)
    rw [Accounts, hsame]
    cases direction <;> rfl
  next reason hop =>
    obtain ⟨rfl, rfl⟩ := Prod.mk.inj (Option.some.inj hresume)
    rw [Accounts, ← pending_eraseIdx hop { conn.entry with state := .failed reason }]
    cases direction <;> rfl
  next => cases hresume

theorem call_accounts {event : ConnStep} (hcall : conn.call event = some (after, added)) :
    Accounts direction conn after added := by
  cases event with
  | addUp n | addDown n =>
      obtain ⟨rfl, rfl⟩ := Prod.mk.inj (Option.some.inj hcall)
      rw [Accounts, pending_concat]
      cases direction <;> simp only [Entry.bytes, Op.pending, Added.bytes] <;> omega
  | setRoute route =>
      obtain ⟨rfl, rfl⟩ := Prod.mk.inj (Option.some.inj hcall)
      cases direction <;> rfl
  | setOpen =>
      obtain ⟨rfl, rfl⟩ := Prod.mk.inj (Option.some.inj hcall)
      rw [Accounts, withEntry, Entry.bytes_setOpen]
      cases direction <;> rfl
  | setStatus status =>
      obtain ⟨rfl, rfl⟩ := Prod.mk.inj (Option.some.inj hcall)
      rw [Accounts, pending_concat, Entry.bytes_setStatus]
      cases direction <;> rfl
  | fail reason =>
      simp only [call] at hcall
      split at hcall
      next =>
        obtain ⟨rfl, rfl⟩ := Prod.mk.inj (Option.some.inj hcall)
        cases direction <;> rfl
      next =>
        obtain ⟨rfl, rfl⟩ := Prod.mk.inj (Option.some.inj hcall)
        rw [Accounts, pending_concat]
        cases direction <;> rfl
  | resume i => exact resume_accounts hcall
  | count => cases hcall
  | clone => cases hcall
  | drop => cases hcall
  | mark => cases hcall
  | copy => cases hcall

theorem step_accounts {now : Nat} {event : ConnStep}
    (hstep : conn.step now event = some (after, added)) : Accounts direction conn after added := by
  unfold step at hstep
  split at hstep
  next =>
    obtain ⟨rfl, rfl⟩ := Prod.mk.inj (Option.some.inj hstep)
    cases direction <;> rfl
  next =>
    obtain ⟨rfl, rfl⟩ := Prod.mk.inj (Option.some.inj hstep)
    cases direction <;> rfl
  next =>
    obtain ⟨rfl, rfl⟩ := Prod.mk.inj (Option.some.inj hstep)
    cases direction <;> rfl
  next =>
    split at hstep
    next =>
      obtain ⟨rfl, rfl⟩ := Prod.mk.inj (Option.some.inj hstep)
      cases direction <;> rfl
    next => cases hstep
  next => exact call_accounts hstep
  next =>
    obtain ⟨rfl, rfl⟩ := Prod.mk.inj (Option.some.inj hstep)
    change conn.entry.markClosed.bytes direction + _ = _
    rw [Entry.bytes_markClosed]
    cases direction <;> rfl
  next =>
    obtain ⟨rfl, rfl⟩ := Prod.mk.inj (Option.some.inj hstep)
    cases direction <;> rfl
  next => cases hstep

/-- A copy on its way to the history counts what its entry counts. -/
def CopiedCounts (conn : Conn) : Prop :=
  ∀ finished, conn.life = .copied finished →
    finished.id = conn.entry.id ∧ ∀ direction, finished.bytes direction = conn.entry.bytes direction

theorem Steps.copiedCounts {now : Nat} {event : ConnStep}
    (hsteps : conn.Steps now event after added) : after.CopiedCounts := by
  intro finished hcopied
  obtain ⟨hentry, rfl⟩ := hsteps.of_copied hcopied
  rw [hentry]
  exact ⟨rfl, fun direction => by cases direction <;> rfl⟩

end Conn

/-! ## The book -/

namespace Tracker

/-- A record in the history is the last count of a connection that is over. -/
def RecordOf (tracker : Tracker) (record : ConnectionSnapshot) : Prop :=
  ∃ conn ∈ tracker.conns, conn.life = .moved ∧ conn.entry.id = record.id ∧
    ∀ direction, conn.entry.bytes direction = record.bytes direction

structure Accounted (tracker : Tracker) : Prop where
  balanced : ∀ direction,
    tracker.total direction + tracker.pending direction = tracker.counted direction
  copied : ∀ conn ∈ tracker.conns, conn.CopiedCounts
  recorded : ∀ record ∈ tracker.moved, tracker.RecordOf record

namespace Accounted

variable {tracker : Tracker}

theorem start : Accounted {} where
  balanced direction := by cases direction <;> rfl
  copied _ hmem := absurd hmem List.not_mem_nil
  recorded _ hmem := absurd hmem List.not_mem_nil

/-- A connection that is over stays in the heap while another one moves. -/
theorem recorded_set (haccounted : tracker.Accounted) {address : Nat} {conn after : Conn}
    (hget : tracker.conns[address]? = some conn) (hlife : conn.life ≠ .moved)
    {record : ConnectionSnapshot} (hrecord : record ∈ tracker.moved) :
    ∃ conn ∈ tracker.conns.set address after, conn.life = .moved ∧
      conn.entry.id = record.id ∧
      ∀ direction, conn.entry.bytes direction = record.bytes direction := by
  obtain ⟨old, hold, hmoved, hsame⟩ := haccounted.recorded record hrecord
  obtain ⟨j, hj⟩ := List.mem_iff_getElem?.mp hold
  have hne : old ≠ conn := by
    rintro rfl
    exact hlife hmoved
  exact ⟨old, List.mem_of_getElem? (getElem?_set_of_ne hget hne hj), hmoved, hsame⟩

/-- What replacing one connection does to the sums over all. -/
theorem balanced_set (haccounted : tracker.Accounted) {address : Nat} {conn after : Conn}
    {added : Added} (hget : tracker.conns[address]? = some conn) (direction : Direction)
    (haccounts : Conn.Accounts direction conn after added) :
    tracker.total direction + added.bytes direction +
        ((tracker.conns.set address after).map (Conn.pending direction)).sum =
      ((tracker.conns.set address after).map fun conn => conn.entry.bytes direction).sum := by
  have hbalanced := haccounted.balanced direction
  have hpending := sum_map_set (Conn.pending direction) hget after
  have hcounted := sum_map_set (fun conn => conn.entry.bytes direction) hget after
  unfold Tracker.pending Tracker.counted at hbalanced
  unfold Conn.Accounts at haccounts
  omega

theorem take (haccounted : tracker.Accounted) (kind : ConnectionKind) (target route : Text)
    (client : Option Text) (openedAt : Nat) :
    (tracker.take kind target route client openedAt).Accounted := by
  refine ⟨fun direction => ?_, ?_, ?_⟩
  · have hbalanced := haccounted.balanced direction
    rw [Tracker.pending, Tracker.counted, Tracker.take, List.map_append, List.map_append,
      List.sum_append, List.sum_append]
    cases direction <;> exact hbalanced
  · intro conn hmem
    rcases List.mem_append.mp hmem with hold | hnew
    · exact haccounted.copied conn hold
    · obtain rfl := List.mem_singleton.mp hnew
      intro finished hcopied
      cases hcopied
  · intro record hrecord
    obtain ⟨conn, hmem, hconn⟩ := haccounted.recorded record hrecord
    exact ⟨conn, List.mem_append_left _ hmem, hconn⟩

theorem insert (haccounted : tracker.Accounted) {address : Nat} {conn : Conn}
    (hget : tracker.conns[address]? = some conn) (hlife : conn.life = .taken) :
    (tracker.insert address conn).Accounted := by
  refine ⟨fun direction => ?_, ?_, fun record hrecord => ?_⟩
  · have hbalanced := haccounted.balanced_set hget direction (conn.accounts_life .inserted)
    cases direction <;> exact hbalanced
  · exact forall_mem_set haccounted.copied nofun
  · exact haccounted.recorded_set hget (by rw [hlife]; nofun) hrecord

theorem own (haccounted : tracker.Accounted) {address now : Nat} {event : ConnStep}
    {conn after : Conn} {added : Added} (hget : tracker.conns[address]? = some conn)
    (hstep : conn.step now event = some (after, added)) :
    ({ tracker with conns := tracker.conns.set address after }.add added).Accounted := by
  have hsteps := Conn.step_cases hstep
  refine ⟨fun direction => ?_, ?_, fun record hrecord => ?_⟩
  · have hbalanced := haccounted.balanced_set hget direction (Conn.step_accounts hstep)
    cases direction <;> exact hbalanced
  · exact forall_mem_set haccounted.copied hsteps.copiedCounts
  · exact haccounted.recorded_set hget hsteps.not_moved hrecord

/-- The record that is moved is the last count of its connection. -/
theorem move (haccounted : tracker.Accounted) {address : Nat} {conn : Conn}
    {finished : ConnectionSnapshot} (hget : tracker.conns[address]? = some conn)
    (hlife : conn.life = .copied finished) :
    (tracker.move address conn finished).Accounted := by
  refine ⟨fun direction => ?_, ?_, fun record hrecord => ?_⟩
  · have hbalanced := haccounted.balanced_set hget direction (conn.accounts_life .moved)
    cases direction <;> exact hbalanced
  · exact forall_mem_set haccounted.copied nofun
  · rcases List.mem_append.mp hrecord with hold | hnew
    · exact haccounted.recorded_set hget (by rw [hlife]; nofun) hold
    · obtain rfl := List.mem_singleton.mp hnew
      obtain ⟨hid, hbytes⟩ := haccounted.copied conn (List.mem_of_getElem? hget) record hlife
      have hlt : address < tracker.conns.length := (List.getElem?_eq_some_iff.mp hget).1
      exact ⟨{ conn with life := .moved }, List.mem_set hlt _, rfl, hid.symm,
        fun direction => (hbytes direction).symm⟩

/-- Every step keeps the accounts. -/
theorem step {event : Event} {next : Tracker} (haccounted : tracker.Accounted)
    (hstep : tracker.step event = some next) : next.Accounted := by
  cases event with
  | own address event =>
      simp only [Tracker.step] at hstep
      split at hstep
      next conn hget =>
        obtain ⟨⟨after, added⟩, hown, rfl⟩ := Option.map_eq_some_iff.mp hstep
        exact haccounted.own hget hown
      next => cases hstep
  | take kind target route client openedAt =>
      cases step_cases hstep
      exact haccounted.take kind target route client openedAt
  | insert address =>
      cases step_cases hstep with
      | insert hlock hget hlife => exact haccounted.insert hget hlife
  | move address =>
      cases step_cases hstep with
      | move hlock hget hlife => exact haccounted.move hget hlife
  | lock =>
      cases step_cases hstep
      exact { haccounted with }
  | readUp =>
      cases step_cases hstep
      exact { haccounted with }
  | readRest =>
      cases step_cases hstep
      exact { haccounted with }
  | unlock =>
      cases step_cases hstep
      exact { haccounted with }
  | tick elapsed =>
      cases step_cases hstep
      exact { haccounted with }

end Accounted

theorem accounted_of_run {events : List Event} {tracker final : Tracker}
    (haccounted : tracker.Accounted) (hrun : run Tracker.step tracker events = some final) :
    final.Accounted :=
  run_invariant Accounted (fun _ _ _ haccounted hstep => haccounted.step hstep) haccounted hrun

end Tracker

/-! ## 64-bit counters -/

/-- What a 64-bit counter shows of a number. -/
def word (n : Nat) : UInt64 := UInt64.ofNat n

/-- The sum that 64-bit counters add up to. -/
def wordSum (words : List UInt64) : UInt64 := words.foldr (· + ·) 0

/-- A `fetch_add` wraps, so a counter shows the number that was added up. -/
theorem word_add (m n : Nat) : word (m + n) = word m + word n := UInt64.ofNat_add m n

theorem word_sum {α : Type*} (contribution : α → Nat) (l : List α) :
    word (l.map contribution).sum = wordSum (l.map fun a => word (contribution a)) := by
  induction l with
  | nil => rfl
  | cons a rest ih =>
      rw [List.map_cons, List.sum_cons, word_add, ih]
      rfl

namespace Tracker

end Tracker

end Zicade.Proxy.Book
