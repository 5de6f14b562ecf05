/-
**Loops of descriptors and their bytes.**

Nothing says how many descriptors a loop has, and nothing but the length bytes says where one ends and the
next one begins.  Still a byte string is a loop in one way at most: what is read of it is what is written as
these bytes, and no list of descriptors with bodies of at most 255 bytes is left out.  A byte string that is
no loop ends within a descriptor, and it is refused because this descriptor wants more bytes than there are.

Longer bodies can be put into a descriptor, but not be sent.  They come back cut.

Main results:

* `ServiceInfo.Descriptor.read_loop_eq_ok_iff` — a loop is read as what is written as its bytes;
* `ServiceInfo.Descriptor.exists_shortage` — a byte string that is no loop is too short;
* `ServiceInfo.Descriptor.loopOfBytes_loopBytes` — **reading loops and writing them undo each other**.
-/

import ServiceInfo.Proofs.Refusals

set_option relaxedAutoImplicit false
set_option autoImplicit false

namespace ServiceInfo

namespace Descriptor

open Reader

variable {bs : Bytes} {d : Descriptor} {ds : List Descriptor}

/-- The body can be sent as it is. -/
def IsSendable (d : Descriptor) : Prop := d.body.length ≤ bodyLimit

theorem isSendable_cut (d : Descriptor) : d.cut.IsSendable := List.length_take_le _ _

theorem IsSendable.cut_eq (h : d.IsSendable) : d.cut = d := by
  rw [cut, List.take_of_length_le h]

theorem map_cut_eq_self (h : ∀ d ∈ ds, d.IsSendable) : ds.map cut = ds := by
  conv_rhs => rw [← List.map_id ds]
  exact List.map_congr_left fun d hd => (h d hd).cut_eq

theorem read_loop_loopBytes (ds : List Descriptor) : loopOfBytes (loopBytes ds) = .ok (ds.map cut) :=
  (exhausts_loop ds).read_eq

/-- What has been read comes back as it is, so none of its bodies is too long. -/
theorem isSendable_of_read (h : loopOfBytes bs = .ok ds) : ∀ d ∈ ds, d.IsSendable := by
  have hagain := read_loop_loopBytes ds
  rw [← eq_loopBytes_of_read h, h, Except.ok.injEq] at hagain
  intro d hd
  rw [hagain] at hd
  obtain ⟨o, -, rfl⟩ := List.mem_map.1 hd
  exact o.isSendable_cut

/-- **A loop is read as what is written as its bytes**, and as nothing else. -/
theorem read_loop_eq_ok_iff :
    loopOfBytes bs = .ok ds ↔ (∀ d ∈ ds, d.IsSendable) ∧ loopBytes ds = bs := by
  constructor
  · intro h
    exact ⟨isSendable_of_read h, (eq_loopBytes_of_read h).symm⟩
  · rintro ⟨hsendable, rfl⟩
    rw [read_loop_loopBytes, map_cut_eq_self hsendable]

/-- **A byte string that is no loop is too short**: it is all there is, and a descriptor wants more. -/
theorem exists_shortage {e : ReadError} (h : loopOfBytes bs = .error e) :
    ∃ expected, bs.length < expected ∧ e = .short expected bs.length := by
  have hsound : Sound 0 bs (toEnd reader bs) := guarded_reader.toEnd (by decide) bs (Nat.zero_le _)
  rw [loopOfBytes, loop, Reader.read, overWhole] at h
  generalize toEnd reader bs = answer at hsound h
  cases hsound with
  | ok hrest => cases h
  | @short expected actual hlt => exact ⟨bs.length - actual + expected, by omega, (Except.error.inj h).symm⟩

/-- **Reading loops and writing them undo each other.**  A byte string is read as some descriptors if and
only if none of their bodies is too long and the string is what is written of them.  It is refused for its
shortness if and only if there are no such descriptors.  A loop takes as many bytes as is said beforehand,
and all of it comes back, of every body the first 255 bytes. -/
theorem loopOfBytes_loopBytes :
    (∀ (bs : Bytes) (ds : List Descriptor),
      loopOfBytes bs = .ok ds ↔ (∀ d ∈ ds, d.body.length ≤ 255) ∧ loopBytes ds = bs) ∧
    (∀ bs : Bytes, (∃ expected, bs.length < expected ∧
        (loopOfBytes bs).mapError ReadError.fault = .error (.incomplete expected bs.length)) ↔
      ¬ ∃ ds : List Descriptor, (∀ d ∈ ds, d.body.length ≤ 255) ∧ loopBytes ds = bs) ∧
    ∀ ds : List Descriptor, (loopBytes ds).length = loopSize ds ∧
      loopOfBytes (loopBytes ds) = .ok (ds.map fun d => { d with body := d.body.take 255 }) := by
  refine ⟨fun bs ds => read_loop_eq_ok_iff, fun bs => ⟨?_, fun hnone => ?_⟩, fun ds =>
    ⟨length_loopBytes ds, read_loop_loopBytes ds⟩⟩
  · rintro ⟨expected, -, hrefused⟩ ⟨ds, hds⟩
    rw [read_loop_eq_ok_iff.2 hds] at hrefused
    cases hrefused
  · cases hread : loopOfBytes bs with
    | ok ds => exact absurd ⟨ds, read_loop_eq_ok_iff.1 hread⟩ hnone
    | error e =>
        obtain ⟨expected, hlt, rfl⟩ := exists_shortage hread
        exact ⟨expected, hlt, rfl⟩

/-- Two descriptors, the second of which may be without its last two bytes, and one with a body of 300
bytes. -/
theorem loopOfBytes_loopBytes_samples :
    loopOfBytes [0x48, 1, 0xAA, 0x40, 4, 0xCC, 0xDD, 0xEE, 0xFF] =
      .ok [⟨0x48, [0xAA]⟩, ⟨0x40, [0xCC, 0xDD, 0xEE, 0xFF]⟩] ∧
    (¬ ∃ ds : List Descriptor, (∀ d ∈ ds, d.body.length ≤ 255) ∧
      loopBytes ds = [0x48, 1, 0xAA, 0x40, 4, 0xCC, 0xDD]) ∧
    loopOfBytes (loopBytes [⟨0x4D, List.replicate 300 0⟩]) = .ok [⟨0x4D, List.replicate 255 0⟩] := by
  obtain ⟨hread, hrefused, hback⟩ := loopOfBytes_loopBytes
  exact ⟨(hread _ _).2 ⟨by decide, rfl⟩, (hrefused _).1 ⟨9, by decide, rfl⟩,
    (hback _).2.trans (by rw [List.map_singleton, List.take_replicate]; rfl)⟩

end Descriptor

end ServiceInfo
