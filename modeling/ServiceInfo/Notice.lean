/-
**Notices.**

An operation that has something to say beside its result says it by notices: data that it drops, a
table that is complete, a receiver that comes or goes.  A notice is a value, with a level and a line
of text that are both made from it in this module; nothing in the library reads a notice again.

Main definitions:

* `ServiceInfo.Notice` — what there is to say, with `Notice.level` and `Notice.text`;
* `ServiceInfo.Noted` — a result together with the notices made on the way.
-/

import ServiceInfo.Fault

set_option relaxedAutoImplicit false
set_option autoImplicit false

namespace ServiceInfo

/-- How much a notice matters. -/
inductive Level where
  | warn
  | debug
  | trace
  deriving DecidableEq, Repr

/-- The word for a level. -/
def Level.text : Level → String
  | warn => "WARN"
  | debug => "DEBUG"
  | trace => "TRACE"

/-- Something worth saying.  `table` is the short name of a kind of table. -/
inductive Notice where
  /-- A section of another kind of table was passed over. -/
  | foreignSection (table : String) (tableId : UInt8)
  /-- A section whose number is past its table's last was passed over. -/
  | numberPastLast (table : String) (subtable : Subtable) (number lastNumber : UInt8)
  /-- A break in the stream cost the sections collected so far. -/
  | draftDropped (table : String) (subtable : Subtable)
  /-- A section of another table cost the sections collected so far. -/
  | startedOver (subtable : Subtable)
  /-- A section of the edition delivered last was passed over. -/
  | repeated (table : String) (subtable : Subtable) (version : UInt8)
  | completed (table : String) (subtable : Subtable) (version : UInt8) (count : Nat)
  | undecodable (table : String) (subtable : Subtable) (fault : Fault)
  /-- All section numbers are used; this item and those after it are dropped. -/
  | numbersUsedUp (tableId : UInt8)
  | largeItem (tableId : UInt8) (size room : Nat)
  | largeEntity (tableId : UInt8) (size room : Nat)
  /-- Of the descriptors of an entity only the first `kept` were written. -/
  | entityCut (tableId : UInt8) (kept count : Nat)
  | titleCut (source event : UInt16)
  /-- Of the descriptors of a time offset table only the first `kept` were written. -/
  | offsetsCut (kept count : Nat)
  | settingsRead (verifyChecksum : Bool) (sizeLimit : Option Nat)
  | attached (subtable : Subtable)
  | detached (subtable : Subtable)
  /-- A receiver was detached while it handles a section. -/
  | detachedBusy (subtable : Subtable)
  | detachRefused (subtable : Subtable)
  | discarded (subtable : Subtable)
  /-- The rest of a buffer does not start with a section. -/
  | bufferDropped (fault : Fault)
  | sectionDropped (subtable : Subtable) (fault : Fault)
  | interrupted (count : Nat)
  deriving DecidableEq, Repr

namespace Notice

/-- How much each notice matters. -/
def level : Notice → Level
  | repeated .. | discarded .. => .trace
  | draftDropped .. | completed .. | settingsRead .. | attached .. | detached .. | detachedBusy ..
  | interrupted .. => .debug
  | foreignSection .. | numberPastLast .. | startedOver .. | undecodable .. | numbersUsedUp ..
  | largeItem .. | largeEntity .. | entityCut .. | titleCut .. | offsetsCut .. | detachRefused ..
  | bufferDropped .. | sectionDropped .. => .warn

/-- The line of text of each notice. -/
def text : Notice → String
  | foreignSection table tableId => table ++ ": " ++ (Fault.foreign tableId).message
  | numberPastLast table s number lastNumber =>
      table ++ " " ++ s.label ++ s!": section_number {number} past last_section_number {lastNumber}"
  | draftDropped table s => table ++ " " ++ s.label ++ ": discontinuity, dropping partial table"
  | startedOver s => (Fault.inconsistent s).message ++ ", reinitializing"
  | repeated table s version => table ++ " " ++ s.label ++ s!": version {version} already delivered"
  | completed table s version count =>
      table ++ " " ++ s.label ++ s!": version {version} complete ({count} sections)"
  | undecodable table s fault => table ++ " " ++ s.label ++ ": failed to decode: " ++ fault.message
  | numbersUsedUp tableId =>
      "Table 0x" ++ hex 2 tableId.toNat ++ ": out of section numbers, dropping remaining items"
  | largeItem tableId size room =>
      "Table 0x" ++ hex 2 tableId.toNat ++ s!": {size} byte item exceeds section capacity {room}"
  | largeEntity tableId size room =>
      "Table 0x" ++ hex 2 tableId.toNat ++ s!": {size} byte entity exceeds section capacity {room}"
  | entityCut tableId kept count =>
      "Table 0x" ++ hex 2 tableId.toNat
        ++ s!": entity descriptors truncated ({kept} of {count} kept)"
  | titleCut source event =>
      "ATSC EIT 0x" ++ hex 4 source.toNat ++ ": title of event 0x" ++ hex 4 event.toNat
        ++ " truncated"
  | offsetsCut kept count => s!"TOT: descriptors truncated ({kept} of {count} kept)"
  | settingsRead verifyChecksum sizeLimit =>
      let limit := match sizeLimit with
        | some n => s!"Some({n})"
        | none => "None"
      "Using environment/default config: verify_crc="
        ++ (if verifyChecksum then "true" else "false") ++ ", max_section_size=" ++ limit
  | attached s => "Attached subtable decoder " ++ s.label
  | detached s => "Detached subtable decoder " ++ s.label
  | detachedBusy s => "Detached subtable decoder " ++ s.label ++ " during dispatch"
  | detachRefused s => (Fault.notAttached s).message
  | discarded s => (Fault.unclaimed s).message ++ ", discarding section"
  | bufferDropped fault => "Dropping rest of buffer: " ++ fault.message
  | sectionDropped s fault => "Dropping section " ++ s.label ++ ": " ++ fault.message
  | interrupted count => s!"Discontinuity on {count} subtable decoders"

/-- The line with its level in front. -/
def line (n : Notice) : String := n.level.text ++ " " ++ n.text

end Notice

/-! ### Results with notices -/

/-- A result and the notices made on the way to it, first made first. -/
structure Noted (α : Type) where
  value : α
  notices : List Notice := []

end ServiceInfo
