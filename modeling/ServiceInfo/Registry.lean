/-
**Registries.**

A registry says who listens to which subtable: it is a partial map from subtables to receivers.
While a receiver handles a section it is taken out of the map and is *busy*.  Seen from outside it
is still there, until it is detached; from then on the subtable is free and may be given to another
receiver, even before the busy one is done.

The entries are kept in ascending order of their subtables, so that two registries with the same
receivers are equal.

Main definitions:

* `ServiceInfo.Registry` — registries of receivers of a type `δ`;
* `ServiceInfo.Registry.insert`, `ServiceInfo.Registry.remove` — a receiver comes, a receiver goes;
* `ServiceInfo.Registry.contains`, `ServiceInfo.Registry.size`, `ServiceInfo.Registry.keys` — who
  is there;
* `ServiceInfo.Registry.takeOut`, `ServiceInfo.Registry.putBack` — the two ends of handling a
  section.
-/

import ServiceInfo.Fault

set_option relaxedAutoImplicit false
set_option autoImplicit false

namespace ServiceInfo

/-! ### Entries in order -/

/-- Insert an entry before the first one with a higher subtable, in place of one with the same. -/
def insertEntry {δ : Type} (s : Subtable) (d : δ) : List (Subtable × δ) → List (Subtable × δ)
  | [] => [(s, d)]
  | (t, e) :: entries =>
      if s.code < t.code then (s, d) :: (t, e) :: entries
      else if s = t then (s, d) :: entries
      else (t, e) :: insertEntry s d entries

/-- Insert a subtable before the first higher one. -/
def insertKey (s : Subtable) : List Subtable → List Subtable
  | [] => [s]
  | t :: keys => if s.code < t.code then s :: t :: keys else t :: insertKey s keys

/-! ### Registries -/

/-- The receiver that is handling a section. -/
structure Busy where
  subtable : Subtable
  /-- It has been detached since it began. -/
  isDetached : Bool
  deriving DecidableEq, Repr

/-- Who listens to which subtable. -/
structure Registry (δ : Type) where
  /-- The receivers that are not busy, in ascending order of their subtables. -/
  entries : List (Subtable × δ) := []
  /-- The receiver that is handling a section, if there is one. -/
  busy : Option Busy := none
  deriving DecidableEq, Repr

namespace Registry

variable {δ : Type}

/-- The registry without receivers. -/
def empty : Registry δ := {}

/-- The receiver of a subtable that is not busy. -/
def find? (r : Registry δ) (s : Subtable) : Option δ :=
  (r.entries.find? (·.1 == s)).map Prod.snd

/-- The entries without that of a subtable. -/
def erase (r : Registry δ) (s : Subtable) : Registry δ :=
  { r with entries := r.entries.filter (·.1 != s) }

/-- The subtable of the busy receiver, unless that has been detached. -/
def busySubtable (r : Registry δ) : Option Subtable :=
  match r.busy with
  | some b => if b.isDetached then none else some b.subtable
  | none => none

/-! ### Who is there -/

/-- Whether somebody listens to a subtable. -/
def contains (r : Registry δ) (s : Subtable) : Bool :=
  r.entries.any (·.1 == s) || r.busySubtable == some s

/-- How many receivers there are. -/
def size (r : Registry δ) : Nat := r.entries.length + r.busySubtable.toList.length

/-- The subtables that somebody listens to, in ascending order. -/
def keys (r : Registry δ) : List Subtable :=
  match r.busySubtable with
  | some s => insertKey s (r.entries.map Prod.fst)
  | none => r.entries.map Prod.fst

/-! ### Coming and going -/

/-- Let `d` listen to a subtable that nobody listens to. -/
def insert (r : Registry δ) (s : Subtable) (d : δ) : Except Fault (Registry δ) :=
  if r.contains s then .error (.taken s) else .ok { r with entries := insertEntry s d r.entries }

/-- Let nobody listen to a subtable that somebody listens to.  The receiver that goes is the second
part of the result; a busy one stays where it is until it is done. -/
def remove (r : Registry δ) (s : Subtable) : Except Fault (Registry δ × Option δ) :=
  -- A subtable that is busy has no entry: it was taken out, and nobody could take its place.
  if r.busySubtable = some s then .ok ({ r with busy := some ⟨s, true⟩ }, none)
  else
    match r.find? s with
    | some d => .ok (r.erase s, some d)
    | none => .error (.notAttached s)

/-! ### Handling a section -/

/-- Take out the receiver of a subtable, which becomes busy. -/
def takeOut (r : Registry δ) (s : Subtable) : Option (Registry δ × δ) :=
  match r.find? s with
  | some d => some ({ r.erase s with busy := some ⟨s, false⟩ }, d)
  | none => none

/-- The busy receiver of a subtable is done and is now `d`.  It is put back, unless it was detached;
then it is the second part of the result. -/
def putBack (r : Registry δ) (s : Subtable) (d : δ) : Registry δ × Option δ :=
  match r.busy with
  | some ⟨_, true⟩ => ({ r with busy := none }, some d)
  | _ => ({ entries := insertEntry s d r.entries, busy := none }, none)

end Registry

end ServiceInfo
