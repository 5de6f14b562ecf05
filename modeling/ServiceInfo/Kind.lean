/-
**The kinds of tables.**

Thirteen kinds of tables are known: three of the transport stream itself, five of DVB and five of
the ATSC programme guide.  A kind determines the type of its tables and their format, so that what
is said about all formats can be said about all kinds.

Main definitions:

* `ServiceInfo.Kind` — the kinds;
* `ServiceInfo.Kind.Table`, `ServiceInfo.Kind.format` — the tables of a kind and their format;
* `ServiceInfo.AnyTable` — a table of any kind;
* `ServiceInfo.WellKnown.pids`, `ServiceInfo.WellKnown.tableIds` — the numbers set aside for them.
-/

import ServiceInfo.Dvb.Clock
import ServiceInfo.Dvb.Eit
import ServiceInfo.Dvb.Nit
import ServiceInfo.Mpeg.Cat
import ServiceInfo.Mpeg.Pat
import ServiceInfo.Mpeg.Pmt
import ServiceInfo.Psip.Eit
import ServiceInfo.Psip.Ett
import ServiceInfo.Psip.Stt
import ServiceInfo.Psip.Vct

set_option relaxedAutoImplicit false
set_option autoImplicit false

namespace ServiceInfo

/-- A kind of table. -/
inductive Kind where
  /-- Program association. -/
  | pat
  /-- Conditional access. -/
  | cat
  /-- Program map. -/
  | pmt
  /-- Network information and bouquet association. -/
  | nit
  /-- Service description. -/
  | sdt
  /-- Event information. -/
  | eit
  /-- Time and date. -/
  | tdt
  /-- Time offset. -/
  | tot
  /-- Master guide. -/
  | mgt
  /-- Virtual channels. -/
  | vct
  /-- Event information of the programme guide. -/
  | guideEit
  /-- Extended text. -/
  | ett
  /-- System time. -/
  | stt
  deriving DecidableEq, Repr

namespace Kind

/-- All the kinds. -/
def all : List Kind :=
  [pat, cat, pmt, nit, sdt, eit, tdt, tot, mgt, vct, guideEit, ett, stt]

theorem mem_all (k : Kind) : k ∈ all := by cases k <;> decide

/-- The name under which a kind is asked for. -/
def name : Kind → String
  | pat => "pat"
  | cat => "cat"
  | pmt => "pmt"
  | nit => "nit"
  | sdt => "sdt"
  | eit => "eit"
  | tdt => "tdt"
  | tot => "tot"
  | mgt => "mgt"
  | vct => "vct"
  | guideEit => "atsc_eit"
  | ett => "ett"
  | stt => "stt"

/-- The tables of a kind. -/
@[reducible] def Table : Kind → Type
  | pat => Mpeg.Pat
  | cat => Mpeg.Cat
  | pmt => Mpeg.Pmt
  | nit => Dvb.Nit
  | sdt => Dvb.Sdt
  | eit => Dvb.Eit
  | tdt => Dvb.Tdt
  | tot => Dvb.Tot
  | mgt => Psip.Mgt
  | vct => Psip.Vct
  | guideEit => Psip.Eit
  | ett => Psip.Ett
  | stt => Psip.Stt

instance : (k : Kind) → DecidableEq k.Table
  | pat => inferInstanceAs (DecidableEq Mpeg.Pat)
  | cat => inferInstanceAs (DecidableEq Mpeg.Cat)
  | pmt => inferInstanceAs (DecidableEq Mpeg.Pmt)
  | nit => inferInstanceAs (DecidableEq Dvb.Nit)
  | sdt => inferInstanceAs (DecidableEq Dvb.Sdt)
  | eit => inferInstanceAs (DecidableEq Dvb.Eit)
  | tdt => inferInstanceAs (DecidableEq Dvb.Tdt)
  | tot => inferInstanceAs (DecidableEq Dvb.Tot)
  | mgt => inferInstanceAs (DecidableEq Psip.Mgt)
  | vct => inferInstanceAs (DecidableEq Psip.Vct)
  | guideEit => inferInstanceAs (DecidableEq Psip.Eit)
  | ett => inferInstanceAs (DecidableEq Psip.Ett)
  | stt => inferInstanceAs (DecidableEq Psip.Stt)

/-- The format of the tables of a kind. -/
def format : (k : Kind) → TableFormat k.Table
  | pat => Mpeg.Pat.format
  | cat => Mpeg.Cat.format
  | pmt => Mpeg.Pmt.format
  | nit => Dvb.Nit.format
  | sdt => Dvb.Sdt.format
  | eit => Dvb.Eit.format
  | tdt => Dvb.Tdt.format
  | tot => Dvb.Tot.format
  | mgt => Psip.Mgt.format
  | vct => Psip.Vct.format
  | guideEit => Psip.Eit.format
  | ett => Psip.Ett.format
  | stt => Psip.Stt.format

end Kind

/-- A table of any kind. -/
structure AnyTable where
  kind : Kind
  table : kind.Table

/-! ### Well-known numbers -/

namespace WellKnown

/-- The streams of packets that tables are sent in, by the tables: program association, conditional
access, network information, service description, bouquet association, event information, time and
date, time offset, and the base of the programme guide. -/
def pids : List UInt16 := [0x0000, 0x0001, 0x0010, 0x0011, 0x0011, 0x0012, 0x0014, 0x0014, 0x1FFB]

/-- The table ids set aside, in ascending order.  Of the ids of event schedules only the first and
the last of this stream and of others are listed. -/
def tableIds : List UInt8 :=
  [0x00, 0x01, 0x02, 0x40, 0x41, 0x42, 0x46, 0x4A, 0x4E, 0x4F, 0x50, 0x5F, 0x60, 0x6F, 0x70, 0x73,
    0xC7, 0xC8, 0xC9, 0xCB, 0xCC, 0xCD]

end WellKnown

end ServiceInfo
