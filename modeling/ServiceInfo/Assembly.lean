/-
**Assembling tables from their sections.**

The sections of a table come in any order, again and again, mixed with those of other editions, and
some are lost.  An assembly collects the sections of one subtable into a *draft*, with a slot for
each section number.  When the draft is complete it is decoded, and its table is delivered.  The
edition delivered last is remembered, and its sections are passed over from then on until another
edition has been delivered.

A draft is dropped when a section of another table comes in, which then starts the next draft, and
when the stream was interrupted before the section at hand.

A table whose format wants every section is complete when no slot is empty.  In a segmented format
the end of a segment may be missing.  There an empty slot is excused if no later slot of its segment
is filled and a section before it in the segment announces an end before it.  Since the sections are
sent in ascending order, over and over, this is looked at only when nothing can be missing by
chance: on the last section, if the draft began with section 0, and otherwise once a section with a
lower number than the first one has come in.

Main definitions:

* `ServiceInfo.Draft`, `ServiceInfo.Assembly` — the table being collected, and the whole state;
* `ServiceInfo.Draft.isExcused`, `ServiceInfo.Draft.isReady` — when a draft is complete;
* `ServiceInfo.Assembly.receive` — one more section, and the table that it completes;
* `ServiceInfo.Assembly.interrupt`, `ServiceInfo.Assembly.forget` — a break in the stream, and a
  fresh start.
-/

import ServiceInfo.Format

set_option relaxedAutoImplicit false
set_option autoImplicit false

namespace ServiceInfo

/-! ### Drafts -/

/-- A table being collected. -/
structure Draft where
  /-- The section that came in first, with which all others are compared. -/
  opener : Section
  /-- A section with a lower number than the first one has come in. -/
  hasWrapped : Bool
  slots : List (Option Section)
  deriving DecidableEq, Repr

namespace Draft

/-- The number of sections in a segment. -/
def segmentSize : Nat := 8

/-- The draft that `s` starts, without `s` itself in it. -/
def start (s : Section) : Draft := ⟨s, false, List.replicate (s.header.lastNumber.toNat + 1) none⟩

/-- The draft with one more section in its slot. -/
def add (d : Draft) (s : Section) : Draft :=
  { d with
    hasWrapped := d.hasWrapped || s.header.number < d.opener.header.number
    slots := d.slots.set s.header.number.toNat (some s) }

/-- The sections collected, in ascending order of their numbers. -/
def sections (d : Draft) : List Section := d.slots.filterMap id

/-- Whether slot `i`, which is empty, is known to stay empty: no later slot of its segment is
filled, and a section before it in the segment announces an end of the segment before it. -/
def isExcused (d : Draft) (segmentLast : Section → Option UInt8) (i : Nat) : Bool :=
  let start := i / segmentSize * segmentSize
  let later := (d.slots.take (start + segmentSize)).drop (i + 1)
  let before := ((d.slots.take i).drop start).filterMap id
  later.all Option.isNone && (before.filterMap segmentLast).any (·.toNat < i)

/-- Whether nothing can be missing by chance, now that section `incoming` has come in. -/
def isDue (d : Draft) (incoming : UInt8) : Bool :=
  if d.opener.header.number = 0 then incoming == d.opener.header.lastNumber else d.hasWrapped

/-- Whether the draft is complete, now that section `incoming` has come in. -/
def isReady {α : Type} (format : TableFormat α) (d : Draft) (incoming : UInt8) : Bool :=
  match format.gaps with
  | .never => d.slots.all Option.isSome
  | .atSegmentEnds =>
      d.isDue incoming && d.slots.zipIdx.all fun (slot, i) =>
        slot.isSome || d.isExcused format.segmentLast i

end Draft

/-! ### Assemblies -/

/-- The state of assembling one subtable. -/
structure Assembly where
  draft : Option Draft := none
  delivered : Option Edition := none
  /-- The stream was interrupted since the last section. -/
  isInterrupted : Bool := false
  deriving DecidableEq, Repr

namespace Assembly

/-- An assembly that has seen nothing. -/
def idle : Assembly := {}

/-- Whether sections are being collected. -/
def isCollecting (a : Assembly) : Bool := a.draft.isSome

/-- The number of sections collected. -/
def count (a : Assembly) : Nat :=
  match a.draft with
  | some d => d.sections.length
  | none => 0

/-- Note a break in the stream.  What has been collected is dropped when the next section comes
in. -/
def interrupt (a : Assembly) : Assembly := { a with isInterrupted := true }

/-- Forget everything, the edition delivered last included. -/
def forget (_ : Assembly) : Assembly := idle

/-! ### One more section -/

variable {α : Type} (format : TableFormat α)

/-- Drop the draft if the stream was interrupted before the section `s`. -/
def resume (a : Assembly) (s : Section) : Noted Assembly :=
  if a.isInterrupted then
    ⟨{ a with draft := none, isInterrupted := false },
      if a.isCollecting then [.draftDropped format.name s.subtable] else []⟩
  else ⟨a, []⟩

/-- Drop the draft if the section `s` belongs to another table. -/
def turnTo (a : Assembly) (s : Section) : Noted Assembly :=
  match a.draft with
  | some d =>
      if format.sameTable d.opener s then ⟨a, []⟩
      else ⟨{ a with draft := none }, [.startedOver s.subtable]⟩
  | none => ⟨a, []⟩

/-- Decode a complete draft and deliver its table. -/
def deliver (a : Assembly) (d : Draft) : Noted (Assembly × Option α) :=
  let subtable := d.opener.subtable
  match format.decode d.sections with
  | .ok table =>
      ⟨({ a with draft := none, delivered := some d.opener.header.edition }, some table),
        [.completed format.name subtable d.opener.header.edition.version d.sections.length]⟩
  | .error fault => ⟨({ a with draft := none }, none), [.undecodable format.name subtable fault]⟩

/-- Put the section `s` into the draft `d`, and deliver the table if that completes it. -/
def collect (a : Assembly) (d : Draft) (s : Section) : Noted (Assembly × Option α) :=
  let d := d.add s
  if d.isReady format s.header.number then a.deliver format d
  else ⟨({ a with draft := some d }, none), []⟩

/-- Take in a section that belongs to the draft, if there is one.  Without a draft the section
starts one, unless it is of the edition delivered last and the format skips repeats. -/
def takeIn (a : Assembly) (s : Section) : Noted (Assembly × Option α) :=
  match a.draft with
  | some d => a.collect format d s
  | none =>
      if format.skipsRepeats && a.delivered == some s.header.edition then
        ⟨(a, none), [.repeated format.name s.subtable s.header.edition.version]⟩
      else a.collect format (.start s) s

/-- **Take in one section**, whose checksum has been looked at before.  The result is the state
after it and the table that it completes. -/
def receive (a : Assembly) (s : Section) : Noted (Assembly × Option α) :=
  let header := s.header
  if !format.accepts header.tableId then
    ⟨(a, none), [.foreignSection format.name header.tableId]⟩
  else if header.lastNumber < header.number then
    ⟨(a, none), [.numberPastLast format.name s.subtable header.number header.lastNumber]⟩
  else
    let resumed := a.resume format s
    let turned := resumed.value.turnTo format s
    let result := turned.value.takeIn format s
    ⟨result.value, resumed.notices ++ turned.notices ++ result.notices⟩

end Assembly

end ServiceInfo
