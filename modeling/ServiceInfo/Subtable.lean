/-
**Subtables.**

Several tables may share one stream of packets.  They are told apart by a table id and an
extension of it, and the pair of the two names a subtable.

Main definitions:

* `ServiceInfo.Subtable` — the name of a subtable;
* `ServiceInfo.Subtable.code` — the name as one number, which orders subtables;
* `ServiceInfo.Subtable.label` — the name as text.
-/

import ServiceInfo.Bytes

set_option relaxedAutoImplicit false
set_option autoImplicit false

namespace ServiceInfo

/-- The name of a subtable. -/
structure Subtable where
  tableId : UInt8
  extension : UInt16
  deriving DecidableEq, Repr

namespace Subtable

/-- The name as one number, the table id above the extension. -/
def code (s : Subtable) : Nat := s.tableId.toNat * 65536 + s.extension.toNat

/-- Different subtables have different numbers. -/
theorem code_inj {s t : Subtable} : s.code = t.code ↔ s = t := by
  constructor
  · intro h
    have hs := s.extension.toNat_lt
    have ht := t.extension.toNat_lt
    obtain ⟨a, b⟩ := s
    obtain ⟨c, d⟩ := t
    simp only [code] at h hs ht
    have h₁ : a = c := UInt8.toNat_inj.1 (by omega)
    have h₂ : b = d := UInt16.toNat_inj.1 (by omega)
    rw [h₁, h₂]
  · rintro rfl
    rfl

/-- The name as it appears in messages, such as `0x42/0x0001`. -/
def label (s : Subtable) : String :=
  "0x" ++ hex 2 s.tableId.toNat ++ "/0x" ++ hex 4 s.extension.toNat

end Subtable

end ServiceInfo
