/-
**What can go wrong.**

Every operation of the library that refuses its input says why by a value of one type.  The causes
are data; the sentence shown to a reader is made from them in one place.

Two of the causes are defects of a table format and not of its input: a read without a guard that
meets the end, and a loop that makes no progress.  They are kept apart from a payload that ends too
early, so that a format can be shown to be free of them.

Main definitions:

* `ServiceInfo.Fault` — the causes of refusal;
* `ServiceInfo.Fault.message` — the sentence for each;
* `ServiceInfo.Fault.isLocal` — the causes that cost one section and no more;
* `ServiceInfo.ReadError.fault` — a reader's complaint as a cause of refusal.
-/

import ServiceInfo.Reader
import ServiceInfo.Subtable

set_option relaxedAutoImplicit false
set_option autoImplicit false

namespace ServiceInfo

/-- Why an operation refused. -/
inductive Fault where
  /-- A section declares `declared` bytes and `available` are there. -/
  | malformed (declared available : Nat)
  | badChecksum (carried : UInt32)
  | inconsistent (subtable : Subtable)
  | unclaimed (subtable : Subtable)
  | taken (subtable : Subtable)
  | notAttached (subtable : Subtable)
  | noMemory (bytes : Nat)
  /-- A section would have `size` bytes and may have `limit`. -/
  | tooLong (size limit : Nat)
  /-- A payload ends before a field or a loop does. -/
  | incomplete (expected actual : Nat)
  | foreign (tableId : UInt8)
  | noSections
  /-- A format read `expected` bytes without a guard where `actual` were left. -/
  | overrun (expected actual : Nat)
  /-- A format repeated a reader that consumed nothing. -/
  | stalled
  deriving DecidableEq, Repr

namespace Fault

/-- The sentence that reports a fault. -/
def message : Fault → String
  | malformed declared available =>
      s!"Malformed section: declared {declared} bytes, {available} available"
  | badChecksum carried =>
      "CRC-32 mismatch (section carries 0x" ++ hex 8 carried.toNat ++ ")"
  | inconsistent s => "Inconsistent section for table " ++ s.label
  | unclaimed s => "No decoder for subtable " ++ s.label
  | taken s => "Subtable decoder " ++ s.label ++ " already attached"
  | notAttached s => "Subtable decoder " ++ s.label ++ " is not attached"
  | noMemory bytes => s!"Failed to allocate {bytes} bytes"
  | tooLong size limit => s!"Section too long: {size} bytes (max: {limit})"
  | incomplete expected actual =>
      s!"Incomplete payload: expected {expected} bytes, got {actual}"
  | foreign tableId => "Unexpected table_id: 0x" ++ hex 2 tableId.toNat
  | noSections => "No sections to decode"
  | overrun expected actual => s!"Read past the end: expected {expected} bytes, got {actual}"
  | stalled => "Loop without progress"

/-- Whether the fault costs a single section and leaves everything else as it was. -/
def isLocal : Fault → Bool
  | malformed .. | badChecksum .. | inconsistent .. | unclaimed .. | incomplete .. | foreign .. =>
      true
  | taken .. | notAttached .. | noMemory .. | tooLong .. | noSections | overrun .. | stalled =>
      false

end Fault

/-- A reader's complaint, as a fault of the payload that it read. -/
def ReadError.fault : ReadError → Fault
  | short expected actual => .incomplete expected actual
  | overrun expected actual => .overrun expected actual
  | stalled => .stalled

end ServiceInfo
