/-
**Table formats.**

A table is decoded from the payloads of its sections, in ascending order, and encoded into sections
again.  What the rest of the library has to know about a kind of table is its format: the table ids
that belong to it, the largest size of its sections, when two sections belong to the same table,
where sections may be missing, and how its values are decoded and encoded.

Main definitions:

* `ServiceInfo.Gaps` — where a complete table may lack sections;
* `ServiceInfo.TableFormat` — the format of a kind of table;
* `ServiceInfo.firstSection` — the first of some sections, if all are of the right kind;
* `ServiceInfo.readEach`, `ServiceInfo.readAll` — what a reader makes of the payloads of sections.
-/

import ServiceInfo.Packer
import ServiceInfo.Settings

set_option relaxedAutoImplicit false
set_option autoImplicit false

namespace ServiceInfo

/-- Where a complete table may lack sections. -/
inductive Gaps where
  /-- Nowhere: every number up to the last one is there. -/
  | never
  /-- The numbers fall into segments, and the end of a segment may be missing. -/
  | atSegmentEnds
  deriving DecidableEq, Repr

/-- What encoding a table gives: its sections, and notices about what was left out. -/
abbrev Encoding := Noted (Except Fault (List Section))

/-- Whether two sections agree in what every section of a table repeats in its header. -/
def sameHeader (a b : Section) : Bool :=
  a.header.tableId == b.header.tableId && a.header.extension == b.header.extension
    && a.header.edition.version == b.header.edition.version
    && a.header.lastNumber == b.header.lastNumber

/-- The format of a kind of table, whose values are of type `α`. -/
structure TableFormat (α : Type) where
  name : String
  sizeLimit : Nat
  gaps : Gaps := .never
  /-- An edition that was delivered is not delivered again.  A table that tells the time under an
  edition that never changes turns this off. -/
  skipsRepeats : Bool := true
  accepts : UInt8 → Bool
  sameTable : Section → Section → Bool := sameHeader
  /-- The number of the last section of its segment that a section announces. -/
  segmentLast : Section → Option UInt8 := fun _ => none
  decode : List Section → Except Fault α
  /-- The sections of a table, given the size that they should not exceed. -/
  encode : α → Nat → Encoding

namespace TableFormat

variable {α : Type} (format : TableFormat α)

/-- The size of sections that is used when `requested` is asked for. -/
def boundedSize (requested : Nat) : Nat := ServiceInfo.boundedSize format.sizeLimit requested

/-- The sections of a table, of the size that the settings ask for. -/
def encodeUnder (settings : Settings) (table : α) : Encoding :=
  format.encode table (settings.sizeWithin format.sizeLimit)

end TableFormat

/-! ### Decoding -/

/-- The first of some sections, which must all have table ids that are accepted. -/
def firstSection (accepts : UInt8 → Bool) (sections : List Section) : Except Fault Section :=
  match sections with
  | [] => .error .noSections
  | first :: _ =>
      match sections.find? fun s => !accepts s.header.tableId with
      | some s => .error (.foreign s.header.tableId)
      | none => .ok first

/-- What a reader makes of the payload of each section. -/
def readEach {α : Type} (r : Reader α) (sections : List Section) : Except Fault (List α) :=
  sections.mapM (Section.read r)

/-- The entries that a reader finds in the payloads of all sections. -/
def readAll {α : Type} (r : Reader (List α)) (sections : List Section) : Except Fault (List α) :=
  return (← readEach r sections).flatten

end ServiceInfo
