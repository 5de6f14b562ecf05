/-
**Families of sections, and when one of them is all there.**

The sections that make up a table are a family: they are admitted, they are of one table and one
edition, their numbers are all different, and nothing is missing but what the format allows.  While
members of a family come in, in any order and again and again, the draft is ready only when no member
is missing.

Where every section is wanted this is a matter of counting.  Where segments may end early it rests on
what the sections announce: a slot is excused only if a section before it in its segment announces an
end before it, and the sections of a family announce the last member of their segment.

Main definitions:

* `ServiceInfo.Segmented` — segments that say where they end;
* `ServiceInfo.Family` — **the sections that make up a table**.

Main results:

* `ServiceInfo.Family.latest_eq` — once all members have come in, they are what is decoded;
* `ServiceInfo.Family.subset_of_isReady` — **a draft is not ready before all members are there**;
* `ServiceInfo.Family.isReady_of_never`, `ServiceInfo.Family.isReady_of_segmented` — when it is.
-/

import Mathlib.Data.List.Sort
import ServiceInfo.Proofs.Assembly.Gather

set_option relaxedAutoImplicit false
set_option autoImplicit false

namespace ServiceInfo

/-! ### Excused slots -/

theorem some_mem_drop_take {slots : List (Option Section)} {m n : Nat} {s : Section} :
    some s ∈ (slots.take n).drop m ↔ ∃ j, m ≤ j ∧ j < n ∧ slots[j]? = some (some s) := by
  simp only [List.mem_iff_getElem?, List.getElem?_drop, List.getElem?_take]
  constructor
  · rintro ⟨i, hi⟩
    split at hi
    · next hlt => exact ⟨m + i, Nat.le_add_right m i, hlt, hi⟩
    · cases hi
  · rintro ⟨j, hm, hn, hj⟩
    refine ⟨j - m, ?_⟩
    rw [Nat.add_sub_of_le hm, if_pos hn, hj]

namespace Draft

variable {d : Draft} {segmentLast : Section → Option UInt8} {i : Nat}

theorem all_isNone_behind_iff :
    ((d.slots.take (i / segmentSize * segmentSize + segmentSize)).drop (i + 1)).all
        Option.isNone = true ↔
      ∀ j s, i < j → j / segmentSize = i / segmentSize → d.slots[j]? ≠ some (some s) := by
  rw [List.all_eq_true]
  constructor
  · intro h j s hij hseg hj
    have hlt : j < i / segmentSize * segmentSize + segmentSize := by
      simp only [segmentSize] at hseg ⊢
      omega
    cases h _ (some_mem_drop_take.2 ⟨j, hij, hlt, hj⟩)
  · intro h o ho
    cases o with
    | none => rfl
    | some s =>
        obtain ⟨j, hij, hlt, hj⟩ := some_mem_drop_take.1 ho
        exact absurd hj (h j s hij (by simp only [segmentSize] at hlt ⊢; omega))

theorem any_end_before_iff :
    ((((d.slots.take i).drop (i / segmentSize * segmentSize)).filterMap id).filterMap
        segmentLast).any (·.toNat < i) = true ↔
      ∃ j s last, j < i ∧ j / segmentSize = i / segmentSize ∧ d.slots[j]? = some (some s) ∧
        segmentLast s = some last ∧ last.toNat < i := by
  rw [List.any_eq_true]
  constructor
  · rintro ⟨last, hlast, hlt⟩
    obtain ⟨s, hs, hsegment⟩ := List.mem_filterMap.1 hlast
    obtain ⟨o, ho, rfl⟩ := List.mem_filterMap.1 hs
    obtain ⟨j, hstart, hji, hj⟩ := some_mem_drop_take.1 ho
    exact ⟨j, s, last, hji, by simp only [segmentSize] at hstart ⊢; omega, hj, hsegment,
      by simpa using hlt⟩
  · rintro ⟨j, s, last, hji, hseg, hj, hsegment, hlt⟩
    have hstart : i / segmentSize * segmentSize ≤ j := by
      simp only [segmentSize] at hseg ⊢
      omega
    have hs : s ∈ ((d.slots.take i).drop (i / segmentSize * segmentSize)).filterMap id :=
      List.mem_filterMap.2 ⟨some s, some_mem_drop_take.2 ⟨j, hstart, hji, hj⟩, rfl⟩
    exact ⟨last, List.mem_filterMap.2 ⟨s, hs, hsegment⟩, by simpa using hlt⟩

/-- **When a slot is excused**: nothing stands behind it in its segment, and something before it in
its segment announces an end before it. -/
theorem isExcused_iff :
    d.isExcused segmentLast i = true ↔
      (∀ j s, i < j → j / segmentSize = i / segmentSize → d.slots[j]? ≠ some (some s)) ∧
      ∃ j s last, j < i ∧ j / segmentSize = i / segmentSize ∧ d.slots[j]? = some (some s) ∧
        segmentLast s = some last ∧ last.toNat < i := by
  rw [isExcused, Bool.and_eq_true, all_isNone_behind_iff, any_end_before_iff]

end Draft

/-! ### Families -/

/-- **Segments that say where they end.**  Every section announces the last number of its segment
that there is, no segment is empty, and the last section of the table is there. -/
structure Segmented (segmentLast : Section → Option UInt8) (family : List Section) : Prop where
  announces : ∀ s ∈ family, ∃ last, segmentLast s = some last ∧
    ∀ i, i / Draft.segmentSize = s.header.number.toNat / Draft.segmentSize →
      ((∃ t ∈ family, t.header.number.toNat = i) ↔
        i ≤ last.toNat ∧ i ≤ s.header.lastNumber.toNat)
  exists_mem : ∀ s ∈ family, ∀ k ≤ s.header.lastNumber.toNat / Draft.segmentSize,
    ∃ t ∈ family, t.header.number.toNat / Draft.segmentSize = k
  last_mem : ∀ s ∈ family, ∃ t ∈ family, t.header.number = s.header.lastNumber

/-- **The sections that make up a table**, in ascending order. -/
structure Family {α : Type} (format : TableFormat α) (edition : Edition) (family : List Section) :
    Prop where
  admits : ∀ s ∈ family, format.Admits s
  sameTable : ∀ s ∈ family, ∀ t ∈ family, format.sameTable s t = true
  edition_eq : ∀ s ∈ family, s.header.edition = edition
  ascending : family.Pairwise fun s t => s.header.number < t.header.number
  complete : match format.gaps with
    | .never => ∀ s ∈ family, ∀ i ≤ s.header.lastNumber.toNat,
        ∃ t ∈ family, t.header.number.toNat = i
    | .atSegmentEnds => Segmented format.segmentLast family

namespace Family

variable {α : Type} {format : TableFormat α} {edition : Edition} {family : List Section}

/-- A member is known by its number. -/
theorem eq_of_number_eq (h : Family format edition family) {s t : Section} (hs : s ∈ family)
    (ht : t ∈ family) (hnum : s.header.number = t.header.number) : s = t := by
  have hlt := List.pairwise_iff_getElem.1 h.ascending
  obtain ⟨i, hi, rfl⟩ := List.getElem_of_mem hs
  obtain ⟨j, hj, rfl⟩ := List.getElem_of_mem ht
  rcases Nat.lt_trichotomy i j with hij | rfl | hij
  · exact absurd hnum (UInt8.ne_of_lt (hlt i j hi hj hij))
  · rfl
  · exact absurd hnum.symm (UInt8.ne_of_lt (hlt j i hj hi hij))

/-! ### What is decoded -/

theorem latestNumbered_eq (h : Family format edition family) {ss : List Section}
    (hss : ∀ s ∈ ss, s ∈ family) {s : Section} (hs : s ∈ ss) :
    latestNumbered ss s.header.number.toNat = some s := by
  obtain ⟨t, ht⟩ := Option.isSome_iff_exists.1 (isSome_latestNumbered.2 ⟨s, hs, rfl⟩)
  obtain ⟨hmem, hnum⟩ := of_latestNumbered_eq_some ht
  rw [ht, h.eq_of_number_eq (hss t hmem) (hss s hs) (UInt8.toNat_inj.1 hnum)]

/-- **Once all members have come in, they are what is decoded.** -/
theorem latest_eq (h : Family format edition family) {ss : List Section}
    (hss : ∀ s, s ∈ ss ↔ s ∈ family) : latest ss = family := by
  -- two ascending lists with the same members are equal
  have hirrefl : Std.Irrefl fun s t : Section => s.header.number < t.header.number :=
    ⟨fun s => UInt8.lt_irrefl s.header.number⟩
  have hascending : (latest ss).Pairwise fun s t => s.header.number < t.header.number := by
    rw [latest, List.pairwise_filterMap]
    refine List.pairwise_lt_range.imp ?_
    intro i j hij s hs t ht
    rw [UInt8.lt_iff_toNat_lt, (of_latestNumbered_eq_some hs).2, (of_latestNumbered_eq_some ht).2]
    exact hij
  refine hascending.eq_of_mem_iff h.ascending ?_
  intro s
  rw [← hss, latest, List.mem_filterMap]
  constructor
  · rintro ⟨i, -, hi⟩
    exact (of_latestNumbered_eq_some hi).1
  · intro hs
    exact ⟨s.header.number.toNat, List.mem_range.2 s.header.number.toNat_lt,
      h.latestNumbered_eq (fun t => (hss t).1) hs⟩

/-! ### Slots -/

variable {first : Section} {rest : List Section}

theorem lastNumber_eq (h : Family format edition family) (hf : format.Coherent) {s t : Section}
    (hs : s ∈ family) (ht : t ∈ family) : s.header.lastNumber = t.header.lastNumber :=
  hf.lastNumber_eq (h.sameTable t ht s hs)

theorem number_le (h : Family format edition family) (hf : format.Coherent) {s t : Section}
    (hs : s ∈ family) (ht : t ∈ family) : s.header.number.toNat ≤ t.header.lastNumber.toNat :=
  hf.number_le (h.admits s hs) (h.sameTable t ht s hs)

/-! ### Readiness -/

/-- **The slot of a member is not excused**: whatever stands before it in its segment announces an
end that is not before it. -/
theorem not_isExcused (hsegments : Segmented format.segmentLast family)
    (hmem : ∀ s ∈ first :: rest, s ∈ family) {s : Section} (hs : s ∈ family) :
    (Draft.gather first rest).isExcused format.segmentLast s.header.number.toNat = false := by
  rw [Bool.eq_false_iff, ne_eq, Draft.isExcused_iff]
  rintro ⟨-, j, t, last, -, hseg, hj, hlast, hlt⟩
  -- the section that is said to announce the early end is a member
  obtain ⟨ht, rfl⟩ := Draft.getElem?_slots_gather hj
  obtain ⟨last', hlast', hannounces⟩ := hsegments.announces t (hmem t ht)
  obtain rfl : last = last' := Option.some.inj (hlast.symm.trans hlast')
  have hle := ((hannounces _ hseg.symm).1 ⟨s, hs, rfl⟩).1
  omega

/-- **A slot without a member is excused** once all members have come in: its segment has members,
they stand before it, and they announce an end before it. -/
theorem isExcused_of_segmented (h : Family format edition family) (hf : format.Coherent)
    (hsegments : Segmented format.segmentLast family)
    (hss : ∀ s, s ∈ first :: rest ↔ s ∈ family) {i : Nat} (hi : i ≤ first.header.lastNumber.toNat)
    (hnone : ∀ s ∈ family, s.header.number.toNat ≠ i) :
    (Draft.gather first rest).isExcused format.segmentLast i = true := by
  have hfirst : first ∈ family := (hss first).1 List.mem_cons_self
  -- a member behind the slot would announce an end behind it, and the slot would have a member
  have hbefore : ∀ t ∈ family, t.header.number.toNat / Draft.segmentSize = i / Draft.segmentSize →
      t.header.number.toNat < i := by
    intro t ht hseg
    obtain ⟨last, -, hannounces⟩ := hsegments.announces t ht
    obtain ⟨hle, hle'⟩ := (hannounces _ rfl).1 ⟨t, ht, rfl⟩
    rcases Nat.lt_trichotomy t.header.number.toNat i with hlt | heq | hgt
    · exact hlt
    · exact absurd heq (hnone t ht)
    · obtain ⟨u, hu, hnum⟩ := (hannounces i hseg.symm).2 ⟨by omega, by omega⟩
      exact absurd hnum (hnone u hu)
  refine Draft.isExcused_iff.2 ⟨fun j t hij hseg hj => ?_, ?_⟩
  · obtain ⟨ht, rfl⟩ := Draft.getElem?_slots_gather hj
    have := hbefore t ((hss t).1 ht) hseg
    omega
  · -- the segment has a member, and the end that it announces cannot reach the slot
    obtain ⟨t, ht, hseg⟩ := hsegments.exists_mem first hfirst (i / Draft.segmentSize)
      (Nat.div_le_div_right hi)
    obtain ⟨last, hlast, hannounces⟩ := hsegments.announces t ht
    have hle := h.number_le hf ht hfirst
    obtain ⟨u, hu⟩ := Draft.exists_getElem?_slots_gather hle ⟨t, (hss t).2 ht, rfl⟩
    obtain ⟨hmem, hnum⟩ := Draft.getElem?_slots_gather hu
    obtain rfl : u = t := h.eq_of_number_eq ((hss u).1 hmem) ht (UInt8.toNat_inj.1 hnum)
    refine ⟨_, u, last, hbefore u ht hseg, hseg, hu, hlast, Nat.lt_of_not_le ?_⟩
    intro hlast
    have hlastNumber := h.lastNumber_eq hf ht hfirst
    obtain ⟨v, hv, hnum⟩ := (hannounces i hseg.symm).2 ⟨hlast, hlastNumber ▸ hi⟩
    exact hnone v hv hnum

/-- What is asked of every slot is asked of what has come in under every number that is
announced. -/
theorem all_slots_iff {Q : Option Section × Nat → Bool} :
    (Draft.gather first rest).slots.zipIdx.all Q = true ↔
      ∀ i ≤ first.header.lastNumber.toNat, Q (latestNumbered (first :: rest) i, i) = true := by
  rw [List.all_eq_true, Draft.slots_gather]
  constructor
  · intro h i hi
    refine h _ (List.mem_iff_getElem?.2 ⟨i, ?_⟩)
    rw [List.getElem?_zipIdx, List.getElem?_map, List.getElem?_range (by omega)]
    simp
  · rintro h ⟨o, i⟩ hmem
    obtain ⟨hlt, ho⟩ := List.mem_zipIdx' hmem
    rw [List.length_map, List.length_range] at hlt
    rw [List.getElem_map, List.getElem_range] at ho
    rw [ho]
    exact h i (by omega)

/-- **A draft is not ready before all members are there.** -/
theorem subset_of_isReady (h : Family format edition family) (hf : format.Coherent)
    (hmem : ∀ s ∈ first :: rest, s ∈ family) {incoming : UInt8}
    (hready : (Draft.gather first rest).isReady format incoming = true) :
    ∀ s ∈ family, s ∈ first :: rest := by
  have hcomplete := h.complete
  unfold Draft.isReady at hready
  cases hgaps : format.gaps with
  | never =>
      rw [hgaps] at hready
      intro s hs
      obtain ⟨t, ht, hnum⟩ := Draft.all_isSome_slots_gather.1 hready _
        (h.number_le hf hs (hmem first List.mem_cons_self))
      rwa [← h.eq_of_number_eq (hmem t ht) hs (UInt8.toNat_inj.1 hnum)]
  | atSegmentEnds =>
      rw [hgaps] at hready hcomplete
      intro s hs
      by_contra hnot
      have hle := h.number_le hf hs (hmem first List.mem_cons_self)
      have hslot := all_slots_iff.1 (Bool.and_eq_true_iff.1 hready).2 _ hle
      have hnone : latestNumbered (first :: rest) s.header.number.toNat = none :=
        latestNumbered_eq_none.2 fun t ht hnum => hnot
          (h.eq_of_number_eq (hmem t ht) hs (UInt8.toNat_inj.1 hnum) ▸ ht)
      simp [hnone, not_isExcused hcomplete hmem hs] at hslot

/-- **Where every section is wanted, the draft is ready when all members are there.** -/
theorem isReady_of_never (h : Family format edition family) (hgaps : format.gaps = .never)
    (hss : ∀ s, s ∈ first :: rest ↔ s ∈ family) (incoming : UInt8) :
    (Draft.gather first rest).isReady format incoming = true := by
  have hcomplete := h.complete
  rw [hgaps] at hcomplete
  rw [Draft.isReady, hgaps]
  refine Draft.all_isSome_slots_gather.2 ?_
  intro i hi
  obtain ⟨t, ht, hnum⟩ := hcomplete first ((hss first).1 List.mem_cons_self) i hi
  exact ⟨t, (hss t).2 ht, hnum⟩

/-- **Where segments may end early, the draft is ready when all members are there** and nothing can be
missing by chance. -/
theorem isReady_of_segmented (h : Family format edition family) (hf : format.Coherent)
    (hgaps : format.gaps = .atSegmentEnds) (hss : ∀ s, s ∈ first :: rest ↔ s ∈ family)
    {incoming : UInt8} (hdue : (Draft.gather first rest).isDue incoming = true) :
    (Draft.gather first rest).isReady format incoming = true := by
  have hcomplete := h.complete
  rw [hgaps] at hcomplete
  rw [Draft.isReady, hgaps]
  refine Bool.and_eq_true_iff.2 ⟨hdue, all_slots_iff.2 ?_⟩
  intro i hi
  cases hslot : latestNumbered (first :: rest) i with
  | some t => rfl
  | none =>
      have hnone := latestNumbered_eq_none.1 hslot
      exact h.isExcused_of_segmented hf hcomplete hss hi fun s hs => hnone s ((hss s).2 hs)

/-! ### One cycle -/

/-- The first section of a table that says where its segments end has the number 0. -/
theorem number_head (h : Family format edition (first :: rest))
    (hsegments : Segmented format.segmentLast (first :: rest)) : first.header.number = 0 := by
  obtain ⟨t, ht, hseg⟩ := hsegments.exists_mem first List.mem_cons_self 0 (Nat.zero_le _)
  obtain ⟨last, -, hannounces⟩ := hsegments.announces t ht
  obtain ⟨u, hu, hnum⟩ := (hannounces 0 (by rw [hseg]; rfl)).2 ⟨Nat.zero_le _, Nat.zero_le _⟩
  have hzero : u.header.number = 0 := UInt8.toNat_inj.1 hnum
  rcases List.mem_cons.1 hu with rfl | hu
  · exact hzero
  · have hlt := List.rel_of_pairwise_cons h.ascending hu
    rw [hzero] at hlt
    exact absurd hlt (UInt8.not_lt_zero)

theorem number_getLast (h : Family format edition family)
    (hsegments : Segmented format.segmentLast family) {init : List Section} {s : Section}
    (hfamily : family = init ++ [s]) : s.header.number = s.header.lastNumber := by
  have hs : s ∈ family := by simp [hfamily]
  obtain ⟨t, ht, hnum⟩ := hsegments.last_mem s hs
  rw [hfamily] at ht
  rcases List.mem_append.1 ht with hinit | hlast
  · have hascending := h.ascending
    rw [hfamily, List.pairwise_append] at hascending
    have hlt := hascending.2.2 t hinit s (List.mem_singleton_self s)
    have hle := UInt8.le_iff_toNat_le.1 (h.admits s hs).2
    rw [hnum, UInt8.lt_iff_toNat_lt] at hlt
    omega
  · rw [← hnum, List.mem_singleton.1 hlast]

/-- **After one cycle nothing can be missing by chance**, wherever the cycle begins. -/
theorem isDue_of_cycle (h : Family format edition family) (hf : format.Coherent)
    (hsegments : Segmented format.segmentLast family) {front back init : List Section} {s : Section}
    (hfamily : family = front ++ first :: back)
    (hlast : first :: (back ++ front) = init ++ [s]) :
    (Draft.gather first (back ++ front)).isDue s.header.number = true := by
  rw [Draft.isDue, Draft.opener_gather]
  cases front with
  | nil =>
      -- the cycle begins with the number 0 and ends with the last number
      rw [List.append_nil] at hlast ⊢
      rw [List.nil_append] at hfamily
      subst hfamily
      have hs : s ∈ first :: back := by simp [hlast]
      rw [if_pos (h.number_head hsegments), h.number_getLast hsegments hlast, beq_iff_eq]
      exact h.lastNumber_eq hf hs List.mem_cons_self
  | cons f front =>
      -- the cycle begins later and passes through a lower number
      have hlt : f.header.number < first.header.number := by
        have hascending := h.ascending
        rw [hfamily, List.pairwise_append] at hascending
        exact hascending.2.2 f List.mem_cons_self first List.mem_cons_self
      have hne : first.header.number ≠ 0 := by
        rintro hzero
        rw [hzero] at hlt
        exact UInt8.not_lt_zero hlt
      rw [if_neg hne, Draft.hasWrapped_gather]
      exact ⟨f, by simp, hlt⟩

end Family

end ServiceInfo
