import ChatCalculator.Registry

/-!
# Sessions on a stored table

Rows are changed within a session. It collects the changes, and none of them is stored before the
session commits; then they are stored together, or not at all if one does not fit the rows or the
database refuses them. A session that is rolled back forgets its changes.

## Main definitions

* `RowChange`, `RowChange.rowsAfter?`: a change of one row, and the table after it
* `Session`: the rows as they are stored, and the changes that wait
* `Session.record`, `Session.commit?`, `Session.rollback`: one more change, storing all of them,
  forgetting them

## Main results

* `Session.commit?_start`, `Session.commit?_record_start`: a session that changes nothing, and one
  that changes a single row
* `Session.stored_rollback`: what is stored does not depend on changes that are forgotten
-/

namespace ChatCalculator

/-- A change of one row of a table. -/
inductive RowChange (κ α : Type)
  /-- A new row. -/
  | add (key : κ) (value : α)
  /-- Another value in a row that is there. -/
  | set (key : κ) (value : α)
  /-- A row that is there goes. -/
  | delete (key : κ)

/-- The table after a change, unless the change does not fit it: there is one row for a key at
most, and only a row that is there is set or deleted. -/
def RowChange.rowsAfter? {κ α : Type} [DecidableEq κ] (rows : Registry κ α) :
    RowChange κ α → Option (Registry κ α)
  | .add key value => if key ∈ rows.keys then none else some (rows.push key value)
  | .set key value => if key ∈ rows.keys then some (rows.replace key value) else none
  | .delete key => if key ∈ rows.keys then some (rows.erase key) else none

/-- A session on a table. -/
structure Session (κ α : Type) where
  /-- The rows as they are stored. -/
  stored : Registry κ α
  /-- The changes that are not stored yet, the first one first. -/
  pending : List (RowChange κ α)

namespace Session

variable {κ α : Type}

/-- A session that has not changed anything yet. -/
def start (rows : Registry κ α) : Session κ α :=
  ⟨rows, []⟩

/-- The session with one more change. -/
def record (session : Session κ α) (change : RowChange κ α) : Session κ α :=
  { session with pending := session.pending ++ [change] }

/-- Forgets all changes that are not stored. -/
def rollback (session : Session κ α) : Session κ α :=
  { session with pending := [] }

theorem stored_start (rows : Registry κ α) : (start rows).stored = rows := rfl

theorem stored_rollback (session : Session κ α) : session.rollback.stored = session.stored := rfl

variable [DecidableEq κ]

/-- The row of a key as it is stored. -/
def find? (session : Session κ α) (key : κ) : Option α :=
  session.stored.find? key

/-- Stores all changes, in order. If one of them does not fit, or if the database refuses them,
none is stored. -/
def commit? (session : Session κ α) (accepted : Bool) : Option (Session κ α) :=
  if accepted then (session.pending.foldlM RowChange.rowsAfter? session.stored).map start else none

theorem commit?_refused (session : Session κ α) : session.commit? false = none := rfl

theorem commit?_start (rows : Registry κ α) : (start rows).commit? true = some (start rows) := rfl

theorem commit?_record_start (rows : Registry κ α) (change : RowChange κ α) :
    ((start rows).record change).commit? true = (change.rowsAfter? rows).map start := by
  simp [commit?, start, record]

end Session

end ChatCalculator
