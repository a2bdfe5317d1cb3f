import GraphWorkbench.Json.Basic
import GraphWorkbench.Report
/-!
Events, and logs that keep the latest of what was told.
-/
namespace GraphWorkbench

structure Event where
  name : String
  payload : Json
deriving DecidableEq

def Event.toJson (e : Event) : Json := .obj [("name", .str e.name), ("payload", e.payload)]

/-- The latest entries, as many as the limit admits, the newest first. -/
structure EventLog (α : Type) where
  limit : Nat
  newest : List α := []

namespace EventLog

variable {α : Type}

def ofLimit (limit : Int) : Except Fault (EventLog α) :=
  if 0 ≤ limit then .ok { limit := limit.toNat }
  else .error (.malformed "maxlen must be non-negative")

/-- Adds an entry; the oldest goes when there are too many. -/
def record (log : EventLog α) (entry : α) : EventLog α :=
  { log with newest := (entry :: log.newest).take log.limit }

/-- The entries in the order in which they were recorded. -/
def entries (log : EventLog α) : List α := log.newest.reverse

def clear (log : EventLog α) : EventLog α := { log with newest := [] }

/-- Records entries one after the other. -/
def recordAll (log : EventLog α) (entries : List α) : EventLog α := entries.foldl record log

theorem recordAll_append (log : EventLog α) (a b : List α) :
    log.recordAll (a ++ b) = (log.recordAll a).recordAll b := List.foldl_append

/-- A log that has room shows all that is recorded. -/
theorem newest_recordAll {log : EventLog α} {entries : List α}
    (room : entries.length + log.newest.length ≤ log.limit) :
    (log.recordAll entries).newest = entries.reverse ++ log.newest := by
  induction entries generalizing log with
  | nil => rfl
  | cons e rest ih =>
    rw [List.length_cons] at room
    have hrecord : log.record e = { log with newest := e :: log.newest } := by
      rw [record, List.take_of_length_le]
      rw [List.length_cons]
      omega
    have hroom : rest.length + (log.record e).newest.length ≤ (log.record e).limit := by
      rw [hrecord]
      simp only [List.length_cons]
      omega
    calc (log.recordAll (e :: rest)).newest = rest.reverse ++ (log.record e).newest := ih hroom
      _ = (e :: rest).reverse ++ log.newest := by
        rw [hrecord, List.reverse_cons, List.append_assoc, List.singleton_append]

/-- A log that is told something shows the latest of what it showed and what it is told. -/
theorem newest_recordAll_cons (log : EventLog α) (e : α) (rest : List α) :
    (log.recordAll (e :: rest)).newest =
      ((e :: rest).reverse ++ log.newest).take log.limit := by
  induction rest generalizing log e with
  | nil => rfl
  | cons e' rest ih =>
    have hforget : ((e' :: rest).reverse ++ (e :: log.newest).take log.limit).take log.limit =
        ((e' :: rest).reverse ++ e :: log.newest).take log.limit := by
      rw [List.take_append, List.take_append, List.take_take,
        Nat.min_eq_left (Nat.sub_le ..)]
    calc (log.recordAll (e :: e' :: rest)).newest
        = ((e' :: rest).reverse ++ (e :: log.newest).take log.limit).take log.limit :=
          ih (log.record e) e'
      _ = ((e :: e' :: rest).reverse ++ log.newest).take log.limit := by
        rw [hforget, List.reverse_cons (a := e), List.append_assoc, List.singleton_append]

end EventLog

end GraphWorkbench
