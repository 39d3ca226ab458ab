import Zicade.Foundation.Parties
import Zicade.Foundation.Text

/-! # The log store

A push takes a sequence number, appends its event to the ring and broadcasts it,
each in a step of its own: the number is taken outside the ring's lock, and the
broadcast comes after the lock is released.
-/

namespace Zicade.Observe

open Zicade.Foundation

/-- A captured log record; its `fields` are sorted by key. -/
structure LogEvent where
  seq : Nat
  timestamp : Nat
  level : Text
  target : Text
  message : Text
  fields : List (Text × Text)
  deriving DecidableEq, Repr

/-- How far a call of `push` has come with its event. -/
inductive Push
  | numbered (event : LogEvent)
  | appended (event : LogEvent)
  | sent (event : LogEvent)
  deriving DecidableEq, Repr

namespace Push

def event : Push → LogEvent
  | .numbered event | .appended event | .sent event => event

/-- The event has been appended to the ring. -/
def inRing : Push → Bool
  | .numbered _ => false
  | _ => true

def isSent : Push → Bool
  | .sent _ => true
  | _ => false

end Push

/-- Default depth of the broadcast channel. -/
def broadcastDepth : Nat := 256

/-- The ring has its oldest event first; `seq` is the last number taken. The
calls of `push` so far are kept in the order of their numbers. -/
structure LogStore where
  cap : Nat
  ring : List LogEvent := []
  seq : Nat := 0
  pushes : List Push := []
  deriving DecidableEq, Repr

/-- A step of some thread inside `push`. -/
inductive PushStep
  | number (event : LogEvent)
  | append (i : Nat)
  | send (i : Nat)
  deriving DecidableEq, Repr

namespace LogStore

/-- A store whose ring retains at most `cap` events, and at least one. -/
def new (cap : Nat) : LogStore := { cap := max cap 1 }

/-- How many events the channel is asked to hold for a receiver; the one in use makes a power
of two of it, which the 1024 of the app is. -/
def depth (store : LogStore) : Nat := max broadcastDepth store.cap

/-- Append to the ring, which evicts its oldest event when it is full. -/
def pushRing (store : LogStore) (event : LogEvent) : List LogEvent :=
  (if store.ring.length = store.cap then store.ring.drop 1 else store.ring) ++ [event]

/-- One step of a push, with the event it broadcasts. -/
def step (store : LogStore) : PushStep → Option (LogStore × Option LogEvent)
  | .number event =>
      some ({ store with
        seq := store.seq + 1
        pushes := store.pushes ++ [.numbered { event with seq := store.seq + 1 }] }, none)
  | .append i =>
      match store.pushes[i]? with
      | some (.numbered event) =>
          some ({ store with
            ring := store.pushRing event, pushes := store.pushes.set i (.appended event) }, none)
      | _ => none
  | .send i =>
      match store.pushes[i]? with
      | some (.appended event) =>
          some ({ store with pushes := store.pushes.set i (.sent event) }, some event)
      | _ => none

/-- The buffered events, oldest first. -/
def recent (store : LogStore) : List LogEvent := store.ring

/-- An append evicts nothing. -/
def Roomy (store : LogStore) : PushStep → Prop
  | .append _ => store.ring.length < store.cap
  | _ => True

/-- An event is appended only while no smaller number waits to be. -/
def AppendsInOrder (store : LogStore) : PushStep → Prop
  | .append i => ∀ push ∈ store.pushes[i]?, ∀ other ∈ store.pushes,
      other.inRing = false → push.event.seq ≤ other.event.seq
  | _ => True

instance (store : LogStore) : ∀ step, Decidable (store.Roomy step)
  | .append _ => inferInstanceAs (Decidable (store.ring.length < store.cap))
  | .number _ => .isTrue trivial
  | .send _ => .isTrue trivial

instance (store : LogStore) : ∀ step, Decidable (store.AppendsInOrder step)
  | .append _ => by dsimp only [AppendsInOrder]; infer_instance
  | .number _ => .isTrue trivial
  | .send _ => .isTrue trivial

/-- The steps of a push, each with what it found. -/
inductive Steps (store : LogStore) : PushStep → LogStore → Option LogEvent → Prop
  | number (event : LogEvent) :
      Steps store (.number event)
        { store with
          seq := store.seq + 1
          pushes := store.pushes ++ [.numbered { event with seq := store.seq + 1 }] } none
  | append {i event} (hget : store.pushes[i]? = some (.numbered event)) :
      Steps store (.append i)
        { store with
          ring := store.pushRing event, pushes := store.pushes.set i (.appended event) } none
  | send {i event} (hget : store.pushes[i]? = some (.appended event)) :
      Steps store (.send i)
        { store with pushes := store.pushes.set i (.sent event) } (some event)

theorem step_cases {store next : LogStore} {step : PushStep} {sent : Option LogEvent}
    (hstep : store.step step = some (next, sent)) : store.Steps step next sent := by
  cases step with
  | number event =>
      obtain ⟨rfl, rfl⟩ := Prod.mk.inj (Option.some.inj hstep)
      exact .number event
  | append i =>
      simp only [LogStore.step] at hstep
      split at hstep
      next event hget =>
        obtain ⟨rfl, rfl⟩ := Prod.mk.inj (Option.some.inj hstep)
        exact .append hget
      next => cases hstep
  | send i =>
      simp only [LogStore.step] at hstep
      split at hstep
      next event hget =>
        obtain ⟨rfl, rfl⟩ := Prod.mk.inj (Option.some.inj hstep)
        exact .send hget
      next => cases hstep

/-- The pushes have their numbers in order, and the ring holds the events of the
first of them. -/
structure InSequence (store : LogStore) : Prop where
  counted : store.seq = store.pushes.length
  numbered : ∀ (i : Nat) (push : Push), store.pushes[i]? = some push → push.event.seq = i + 1
  ring : ∀ i < store.ring.length,
    ∃ push, store.pushes[i]? = some push ∧ store.ring[i]? = some push.event
  appended : ∀ (i : Nat) (push : Push), store.pushes[i]? = some push →
    (push.inRing = true ↔ i < store.ring.length)

namespace InSequence

variable {store next : LogStore} {event : PushStep} {sent : Option LogEvent}

theorem start (cap : Nat) : (LogStore.new cap).InSequence where
  counted := rfl
  numbered _ _ hget := by cases hget
  ring _ hlt := absurd hlt (Nat.not_lt_zero _)
  appended _ _ hget := by cases hget

theorem ring_seq (hseq : store.InSequence) {i : Nat} {event : LogEvent}
    (hget : store.ring[i]? = some event) : event.seq = i + 1 := by
  obtain ⟨push, hpush, hring⟩ := hseq.ring i (List.getElem?_eq_some_iff.mp hget).1
  rw [Option.some.inj (hget.symm.trans hring)]
  exact hseq.numbered i push hpush

theorem ring_event (hseq : store.InSequence) {i : Nat} {push : Push}
    (hpush : store.pushes[i]? = some push) (hring : push.inRing = true) :
    store.ring[i]? = some push.event := by
  obtain ⟨other, hother, hget⟩ := hseq.ring i ((hseq.appended i push hpush).mp hring)
  rw [hget, Option.some.inj (hpush.symm.trans hother)]

/-- The ring is ordered by sequence number. -/
theorem sorted (hseq : store.InSequence) :
    (store.ring.map (·.seq)).Pairwise (· < ·) := by
  rw [List.pairwise_map, List.pairwise_iff_getElem]
  intro i j hi hj hlt
  rw [hseq.ring_seq (List.getElem?_eq_getElem hi), hseq.ring_seq (List.getElem?_eq_getElem hj)]
  omega

theorem nodup (hseq : store.InSequence) : store.ring.Nodup := by
  refine (List.pairwise_map.mp hseq.sorted).imp ?_
  rintro first second hlt rfl
  exact Nat.lt_irrefl _ hlt

/-- The next append is that of the first number that is not in the ring yet. -/
theorem append_next (hseq : store.InSequence) {i : Nat} {event : LogEvent}
    (hget : store.pushes[i]? = some (.numbered event))
    (horder : store.AppendsInOrder (.append i)) : i = store.ring.length := by
  have hpast : ¬ i < store.ring.length := fun hlt =>
    Bool.false_ne_true ((hseq.appended i _ hget).mpr hlt)
  have hlt := (List.getElem?_eq_some_iff.mp hget).1
  have hfirst : store.pushes[store.ring.length]? = some store.pushes[store.ring.length] :=
    List.getElem?_eq_getElem (by omega)
  have hwaits : store.pushes[store.ring.length].inRing = false := by
    rw [Bool.eq_false_iff]
    exact fun hring => Nat.lt_irrefl _ ((hseq.appended _ _ hfirst).mp hring)
  have hle := horder _ hget _ (List.mem_of_getElem? hfirst) hwaits
  rw [hseq.numbered i _ hget, hseq.numbered _ _ hfirst] at hle
  omega

theorem length_le (hseq : store.InSequence) : store.ring.length ≤ store.pushes.length := by
  by_contra hmore
  obtain ⟨push, hpush, -⟩ := hseq.ring store.pushes.length (by omega)
  exact Nat.lt_irrefl _ (List.getElem?_eq_some_iff.mp hpush).1

theorem number (hseq : store.InSequence) (event : LogEvent) :
    { store with
      seq := store.seq + 1
      pushes := store.pushes ++
        [.numbered { event with seq := store.seq + 1 }] : LogStore }.InSequence := by
  have hlast {i : Nat} {push : Push}
      (hget : (store.pushes ++ [.numbered { event with seq := store.seq + 1 }])[i]? = some push) :
      store.pushes[i]? = some push ∨
        (i = store.pushes.length ∧ push = .numbered { event with seq := store.seq + 1 }) := by
    rw [List.getElem?_append] at hget
    split at hget
    next => exact .inl hget
    next hpast =>
      obtain ⟨hzero, rfl⟩ := List.getElem?_eq_some_iff.mp hget
      rw [List.length_singleton] at hzero
      exact .inr ⟨by omega, List.getElem_singleton _⟩
  refine ⟨?_, ?_, ?_, ?_⟩
  · rw [List.length_append, hseq.counted]
    rfl
  · intro i push hget
    rcases hlast hget with hold | ⟨rfl, rfl⟩
    · exact hseq.numbered i push hold
    · exact congrArg (· + 1) hseq.counted
  · intro i hlt
    obtain ⟨push, hpush, hring⟩ := hseq.ring i hlt
    have hbound := (List.getElem?_eq_some_iff.mp hpush).1
    exact ⟨push, by rwa [List.getElem?_append_left hbound], hring⟩
  · intro i push hget
    rcases hlast hget with hold | ⟨rfl, rfl⟩
    · exact hseq.appended i push hold
    · have hlength := hseq.length_le
      simp only [Push.inRing, Bool.false_eq_true, false_iff]
      omega

/-- A push that goes on keeps its number. -/
theorem numbered_set (hseq : store.InSequence) {i j : Nat} {old new push : Push}
    (hget : store.pushes[i]? = some old) (hsame : new.event = old.event)
    (hpush : (store.pushes.set i new)[j]? = some push) : push.event.seq = j + 1 := by
  rcases getElem?_set_cases hpush with ⟨rfl, rfl⟩ | ⟨-, hold⟩
  · rw [hsame]
    exact hseq.numbered _ _ hget
  · exact hseq.numbered j push hold

theorem append (hseq : store.InSequence) {event : LogEvent}
    (hget : store.pushes[store.ring.length]? = some (.numbered event)) :
    { store with
      ring := store.ring ++ [event]
      pushes := store.pushes.set store.ring.length (.appended event) : LogStore }.InSequence := by
  refine ⟨?_, ?_, ?_, ?_⟩
  · rw [List.length_set, hseq.counted]
  · exact fun _ _ => hseq.numbered_set hget rfl
  · intro j hlt
    rw [List.length_append, List.length_singleton] at hlt
    by_cases hlast : j = store.ring.length
    · subst hlast
      have hbound := (List.getElem?_eq_some_iff.mp hget).1
      exact ⟨.appended event, List.getElem?_set_self hbound, List.getElem?_concat_length⟩
    · obtain ⟨push, hpush, hring⟩ := hseq.ring j (by omega)
      refine ⟨push, by rwa [List.getElem?_set_ne (Ne.symm hlast)], ?_⟩
      rwa [List.getElem?_append_left (by omega)]
  · intro j push hpush
    rw [List.length_append, List.length_singleton]
    rcases getElem?_set_cases hpush with ⟨rfl, rfl⟩ | ⟨hne, hold⟩
    · simp [Push.inRing]
    · rw [hseq.appended j push hold]
      omega

theorem send (hseq : store.InSequence) {i : Nat} {event : LogEvent}
    (hget : store.pushes[i]? = some (.appended event)) :
    { store with pushes := store.pushes.set i (.sent event) : LogStore }.InSequence := by
  refine ⟨?_, ?_, ?_, ?_⟩
  · rw [List.length_set, hseq.counted]
  · exact fun _ _ => hseq.numbered_set hget rfl
  · intro j hlt
    obtain ⟨push, hpush, hring⟩ := hseq.ring j hlt
    by_cases hsame : i = j
    · subst hsame
      obtain rfl := Option.some.inj (hget.symm.trans hpush)
      have hbound := (List.getElem?_eq_some_iff.mp hget).1
      exact ⟨.sent event, List.getElem?_set_self hbound, hring⟩
    · exact ⟨push, by rwa [List.getElem?_set_ne hsame], hring⟩
  · intro j push hpush
    rcases getElem?_set_cases hpush with ⟨rfl, rfl⟩ | ⟨-, hold⟩
    · have happended := hseq.appended _ _ hget
      exact happended
    · exact hseq.appended j push hold

theorem pushRing_eq {event : LogEvent} (hroom : store.ring.length < store.cap) :
    store.pushRing event = store.ring ++ [event] := by
  rw [pushRing, if_neg (Nat.ne_of_lt hroom)]

/-- Steps in order keep the ring in order, and evict nothing. -/
theorem step (hseq : store.InSequence) (hroomy : store.Roomy event)
    (horder : store.AppendsInOrder event) (hsteps : store.Steps event next sent) :
    next.InSequence ∧ store.ring <+: next.ring := by
  cases hsteps with
  | number event => exact ⟨hseq.number event, List.prefix_refl _⟩
  | append hget =>
      obtain rfl := hseq.append_next hget horder
      rw [pushRing_eq hroomy]
      exact ⟨hseq.append hget, List.prefix_append _ _⟩
  | send hget => exact ⟨hseq.send hget, List.prefix_refl _⟩

end InSequence

end LogStore

end Zicade.Observe
