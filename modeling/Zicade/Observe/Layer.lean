import Mathlib.Data.Char
import Mathlib.Data.List.Lex
import Zicade.Foundation.Runs
import Zicade.Foundation.SortedMap
import Zicade.Observe.LogStore

/-! # The layer that captures events

An event that the level filter lets through is visited field by field, and becomes a log
record: its `message` is lifted out, and its other fields are kept as text, sorted by name.
-/

namespace Zicade.Observe

open Zicade.Foundation

/-- The levels of `tracing`, the most severe first. -/
inductive Level
  | error
  | warn
  | info
  | debug
  | trace
  deriving DecidableEq, Repr

namespace Level

def verbosity : Level → Nat
  | .error => 1
  | .warn => 2
  | .info => 3
  | .debug => 4
  | .trace => 5

def name : Level → Text
  | .error => "ERROR".toList
  | .warn => "WARN".toList
  | .info => "INFO".toList
  | .debug => "DEBUG".toList
  | .trace => "TRACE".toList

end Level

/-- The most verbose level that passes. -/
inductive LevelFilter
  | off
  | upTo (level : Level)
  deriving DecidableEq, Repr

def LevelFilter.enables : LevelFilter → Level → Bool
  | .off, _ => false
  | .upTo most, level => level.verbosity ≤ most.verbosity

/-- Parse a logging level; what is not recognized stands for `INFO`. -/
def levelFilter (level : Text) : LevelFilter :=
  let name := toAsciiLowercase (trim level)
  if name = "trace".toList then .upTo .trace
  else if name = "debug".toList then .upTo .debug
  else if name = "info".toList then .upTo .info
  else if name = "warn".toList ∨ name = "warning".toList then .upTo .warn
  else if name = "error".toList then .upTo .error
  else if name = "off".toList then .off
  else .upTo .info

/-- A value as the visitor is given it; one recorded by its `Debug` form is given that form. -/
inductive FieldValue
  | str (value : Text)
  | i64 (value : Int)
  | u64 (value : Nat)
  | bool (value : Bool)
  | debug (rendered : Text)
  deriving DecidableEq, Repr

def FieldValue.text : FieldValue → Text
  | .str value => value
  | .i64 value => (toString value).toList
  | .u64 value => (toString value).toList
  | .bool value => (toString value).toList
  | .debug rendered => rendered

/-- What an event of `tracing` carries, its fields in the order they are recorded. -/
structure Emission where
  level : Level
  target : Text
  values : List (Text × FieldValue)
  deriving DecidableEq, Repr

/-- The name of the field that is lifted out. -/
def messageField : Text := "message".toList

structure FieldVisitor where
  message : Text := []
  fields : List (Text × Text) := []
  deriving DecidableEq, Repr

namespace FieldVisitor

def record (visitor : FieldVisitor) (field : Text × FieldValue) : FieldVisitor :=
  if field.1 = messageField then { visitor with message := field.2.text }
  else { visitor with fields := insertSorted field.1 field.2.text visitor.fields }

/-- Visit the fields of an event in order. -/
def visit (values : List (Text × FieldValue)) : FieldVisitor := values.foldl record {}

end FieldVisitor

/-- Milliseconds since the epoch, and 0 before it. -/
def unixMillis (sinceEpoch : Option Nat) : Nat := (sinceEpoch.map (· % 2 ^ 64)).getD 0

/-- The record of an event, before the store has numbered it. -/
def onEvent (emission : Emission) (sinceEpoch : Option Nat) : LogEvent where
  seq := 0
  timestamp := unixMillis sinceEpoch
  level := emission.level.name
  target := emission.target
  message := (FieldVisitor.visit emission.values).message
  fields := (FieldVisitor.visit emission.values).fields

/-! ## What a record tells -/

/-- The text of the last value recorded under a name. -/
def lastRecorded (name : Text) (values : List (Text × FieldValue)) : Option Text :=
  (values.filter fun field => field.1 = name).getLast?.map fun field => field.2.text

theorem lastRecorded_concat (name : Text) (values : List (Text × FieldValue))
    (field : Text × FieldValue) :
    lastRecorded name (values ++ [field]) =
      if field.1 = name then some field.2.text else lastRecorded name values := by
  rw [lastRecorded, List.filter_append, List.filter_singleton]
  by_cases hname : field.1 = name
  · rw [if_pos hname, decide_eq_true hname, cond_true, List.getLast?_concat, Option.map_some]
  · rw [if_neg hname, decide_eq_false hname, cond_false, List.append_nil, ← lastRecorded]

/-- A record has the last message recorded, and every other field by its name with the last
value recorded for it. -/
structure Tells (event : LogEvent) (values : List (Text × FieldValue)) : Prop where
  message : event.message = (lastRecorded messageField values).getD []
  sorted : SortedByKey event.fields
  fields : ∀ name, name ≠ messageField → event.fields.lookup name = lastRecorded name values
  noMessage : event.fields.lookup messageField = none

theorem onEvent_tells (emission : Emission) (sinceEpoch : Option Nat) :
    Tells (onEvent emission sinceEpoch) emission.values := by
  suffices hvisit : ∀ values : List (Text × FieldValue),
      (FieldVisitor.visit values).message = (lastRecorded messageField values).getD [] ∧
        SortedByKey (FieldVisitor.visit values).fields ∧
        (∀ name, name ≠ messageField →
          (FieldVisitor.visit values).fields.lookup name = lastRecorded name values) ∧
        (FieldVisitor.visit values).fields.lookup messageField = none by
    obtain ⟨hmessage, hsorted, hfields, hnone⟩ := hvisit emission.values
    exact ⟨hmessage, hsorted, hfields, hnone⟩
  intro values
  refine foldl_history_invariant (fun past (visitor : FieldVisitor) =>
    visitor.message = (lastRecorded messageField past).getD [] ∧
      SortedByKey visitor.fields ∧
      (∀ name, name ≠ messageField → visitor.fields.lookup name = lastRecorded name past) ∧
      visitor.fields.lookup messageField = none)
    ⟨rfl, List.Pairwise.nil, fun _ _ => rfl, rfl⟩ ?_ values
  rintro past visitor field ⟨hmessage, hsorted, hfields, hnone⟩
  rw [FieldVisitor.record]
  split
  next hname =>
    refine ⟨?_, hsorted, fun name hother => ?_, hnone⟩
    · rw [lastRecorded_concat, if_pos hname, Option.getD_some]
    · rw [lastRecorded_concat, if_neg (hname ▸ Ne.symm hother)]
      exact hfields name hother
  next hname =>
    refine ⟨?_, sortedByKey_insertSorted _ _ hsorted, fun name hother => ?_, ?_⟩
    · rw [lastRecorded_concat, if_neg hname]
      exact hmessage
    · rw [lastRecorded_concat]
      split
      next hsame => rw [← hsame, lookup_insertSorted]
      next hdiffers => rw [lookup_insertSorted_of_ne (Ne.symm hdiffers), hfields name hother]
    · rw [lookup_insertSorted_of_ne (Ne.symm hname)]
      exact hnone

/-- The record tells the same once it is numbered. -/
theorem Tells.numbered {event : LogEvent} {values : List (Text × FieldValue)}
    (htells : Tells event values) (seq : Nat) : Tells { event with seq } values :=
  ⟨htells.message, htells.sorted, htells.fields, htells.noMessage⟩

end Zicade.Observe
