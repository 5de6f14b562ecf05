/-
**Receivers.**

A receiver assembles the tables of one subtable and looks at the checksums of what it is given as
bytes.  It can stand alone, where a stream carries one table only, or be attached to a subtable.

Main definitions:

* `ServiceInfo.Receiver` — receivers, with `Receiver.ofSettings`;
* `ServiceInfo.Receiver.receive`, `ServiceInfo.Receiver.receiveBytes` — one more section, as such or
  as bytes.
-/

import ServiceInfo.Assembly

set_option relaxedAutoImplicit false
set_option autoImplicit false

namespace ServiceInfo

/-- The state of receiving one subtable. -/
structure Receiver where
  assembly : Assembly := .idle
  verifyChecksum : Bool := true
  deriving DecidableEq, Repr

namespace Receiver

/-- A receiver that has seen nothing. -/
def ofSettings (settings : Settings) : Receiver := { verifyChecksum := settings.verifyChecksum }

variable {α : Type} (format : TableFormat α)

/-- Take in a section whose checksum has been looked at. -/
def receive (r : Receiver) (s : Section) : Noted (Receiver × Option α) :=
  let result := r.assembly.receive format s
  ⟨({ r with assembly := result.value.1 }, result.value.2), result.notices⟩

/-- Take in the section at the front of some bytes.  What is no section, or is damaged, is refused.  The
result is the state afterwards, and the table that the section completes. -/
def receiveBytes (r : Receiver) (bs : Bytes) : Receiver × Except Fault (Noted (Option α)) :=
  match Section.ofBytes bs with
  | .error fault => (r, .error fault)
  | .ok s =>
      match if r.verifyChecksum then s.verify else .ok () with
      | .error fault => (r, .error fault)
      | .ok () =>
          let result := r.receive format s
          (result.value.1, .ok ⟨result.value.2, result.notices⟩)

/-- Note a break in the stream. -/
def interrupt (r : Receiver) : Receiver := { r with assembly := r.assembly.interrupt }

/-- Forget everything that has been received. -/
def forget (r : Receiver) : Receiver := { r with assembly := r.assembly.forget }

end Receiver

end ServiceInfo
