/-
**Assembling with the parts kept apart.**

An assembly has its draft as one value, which is there or not.  A rack has the same parts side by side:
what is known of the section that came in first, and a row of slots, which is set up, filled and cleared
on its own.  A step changes these parts one by one, and nothing in a rack says that they fit together.
Slots could be left standing when nothing is being collected, there could be too few of them for the
section at hand, and there could be sections of different tables in them.

A section is written to the slot of its number.  If there is no such slot, there is no result, neither a
state nor a table.

Main definitions:

* `ServiceInfo.Opening`, `ServiceInfo.Rack` — the section that came in first, and the whole state;
* `ServiceInfo.Rack.clear`, `ServiceInfo.Rack.start`, `ServiceInfo.Rack.complete` — how the slots are
  emptied, set up and decoded;
* `ServiceInfo.Rack.receive` — one more section, and the table that it completes;
* `ServiceInfo.Rack.interrupt`, `ServiceInfo.Rack.forget` — a break in the stream, and a fresh start.
-/

import ServiceInfo.Assembly

set_option relaxedAutoImplicit false
set_option autoImplicit false

namespace ServiceInfo

/-- What is kept of the section that came in first. -/
structure Opening where
  /-- The section itself, with which all others are compared. -/
  opener : Section
  /-- The number of that section. -/
  number : UInt8
  /-- A section with a lower number has come in since then. -/
  hasWrapped : Bool := false
  deriving DecidableEq, Repr

/-- Note that a section with the number `number` has come in. -/
def Opening.note (o : Opening) (number : UInt8) : Opening :=
  if number < o.number then { o with hasWrapped := true } else o

/-- The state of assembling one subtable, part by part. -/
structure Rack where
  opening : Option Opening := none
  slots : List (Option Section) := []
  delivered : Option Edition := none
  /-- The stream was interrupted since the last section. -/
  isInterrupted : Bool := false
  deriving DecidableEq, Repr

namespace Rack

/-- A rack that has seen nothing. -/
def empty : Rack := {}

/-- Whether sections are being collected. -/
def isCollecting (r : Rack) : Bool := r.opening.isSome

/-- Give up what has been collected. -/
def clear (r : Rack) : Rack := { r with opening := none, slots := [] }

/-- Note a break in the stream. -/
def interrupt (r : Rack) : Rack := { r with isInterrupted := true }

/-- Forget everything, the edition delivered last included. -/
def forget (r : Rack) : Rack := { r.clear with delivered := none, isInterrupted := false }

/-- Set up the slots for the table of the section `s`, which is not put into its slot yet. -/
def start (r : Rack) (s : Section) : Rack :=
  { r with
    slots := List.replicate (s.header.lastNumber.toNat + 1) none
    opening := some { opener := s, number := s.header.number } }

/-! ### Complete tables -/

/-- Whether slot `i`, which is empty, is known to stay empty. -/
def isExcused (r : Rack) (segmentLast : Section → Option UInt8) (i : Nat) : Bool :=
  let start := i / Draft.segmentSize * Draft.segmentSize
  let stop := min (start + Draft.segmentSize) r.slots.length
  let later := (r.slots.take stop).drop (i + 1)
  let before := ((r.slots.take i).drop start).filterMap id
  !later.any Option.isSome && (before.filterMap segmentLast).any (·.toNat < i)

variable {α : Type} (format : TableFormat α)

/-- Whether the table is complete, now that section `incoming` has come in. -/
def isReady (r : Rack) (incoming : UInt8) : Bool :=
  match r.opening with
  | none => false
  | some o =>
      match format.gaps with
      | .never => r.slots.all Option.isSome
      | .atSegmentEnds =>
          (if o.number = 0 then incoming == o.opener.header.lastNumber else o.hasWrapped) &&
            r.slots.zipIdx.all fun (slot, i) =>
              slot.isSome || r.isExcused format.segmentLast i

/-- Take everything out of the slots, and deliver the table that it makes up. -/
def complete (r : Rack) : Noted (Rack × Option α) :=
  match r.opening with
  | none => ⟨(r, none), []⟩
  | some o =>
      let sections := r.slots.filterMap id
      let subtable := o.opener.subtable
      match format.decode sections with
      | .ok table =>
          ⟨({ r.clear with delivered := some o.opener.header.edition }, some table),
            [.completed format.name subtable o.opener.header.edition.version sections.length]⟩
      | .error fault => ⟨(r.clear, none), [.undecodable format.name subtable fault]⟩

/-! ### One more section -/

/-- Clear the slots if the stream was interrupted before the section `s`. -/
def resume (r : Rack) (s : Section) : Noted Rack :=
  if r.isInterrupted then
    ⟨{ r.clear with isInterrupted := false },
      if r.isCollecting then [.draftDropped format.name s.subtable] else []⟩
  else ⟨r, []⟩

/-- Clear the slots if the section `s` belongs to another table. -/
def turnTo (r : Rack) (s : Section) : Noted Rack :=
  match r.opening with
  | some o =>
      if format.sameTable o.opener s then ⟨r, []⟩ else ⟨r.clear, [.startedOver s.subtable]⟩
  | none => ⟨r, []⟩

/-- Write the section `s` to its slot.  There is no result if there is no such slot. -/
def write (r : Rack) (s : Section) : Option Rack :=
  if s.header.number.toNat < r.slots.length then
    some { r with slots := r.slots.set s.header.number.toNat (some s) }
  else none

/-- Write the section `s` to its slot, and deliver the table if that completes it. -/
def put (r : Rack) (s : Section) : Option (Noted (Rack × Option α)) :=
  match r.opening with
  | none => some ⟨(r, none), []⟩
  | some o =>
      let r := { r with opening := some (o.note s.header.number) }
      (r.write s).map fun r =>
        if r.isReady format s.header.number then r.complete format else ⟨(r, none), []⟩

/-- Take in a section that belongs to the table being collected, if there is one.  Otherwise the section
starts one, unless it is of the edition delivered last and the format skips repeats. -/
def takeIn (r : Rack) (s : Section) : Option (Noted (Rack × Option α)) :=
  if r.isCollecting then r.put format s
  else if format.skipsRepeats && r.delivered == some s.header.edition then
    some ⟨(r, none), [.repeated format.name s.subtable s.header.edition.version]⟩
  else (r.start s).put format s

/-- **Take in one section**, whose checksum has been looked at before.  The result, if there is one, is the
state after it and the table that it completes. -/
def receive (r : Rack) (s : Section) : Option (Noted (Rack × Option α)) :=
  let header := s.header
  if !format.accepts header.tableId then
    some ⟨(r, none), [.foreignSection format.name header.tableId]⟩
  else if header.lastNumber < header.number then
    some ⟨(r, none), [.numberPastLast format.name s.subtable header.number header.lastNumber]⟩
  else
    let resumed := r.resume format s
    let turned := resumed.value.turnTo format s
    (turned.value.takeIn format s).map fun result =>
      ⟨result.value, resumed.notices ++ turned.notices ++ result.notices⟩

end Rack

end ServiceInfo
