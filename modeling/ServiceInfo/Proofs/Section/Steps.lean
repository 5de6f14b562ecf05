/-
**A walk from one step to the next.**

At every moment of a walk the buffer is made of two parts: the sections that have been cut off it, back to
back, and what is left.  A step moves the border between them by one section, or it ends the walk and
moves nothing.  The walk ends at the end of the buffer, at padding, or before bytes that are no section,
and only in the last case it has yielded a fault, which was the last that it yielded.

No part of a section is a section itself: the length field asks for all of its bytes.  So a buffer can be
cut in one way only, and what is behind a border does not change how the bytes in front of it are cut.

Main definitions:

* `ServiceInfo.Walk.yielded`, `ServiceInfo.Walk.after` — what the first `n` calls of `Walk.next` yield, and
  the walk after them;
* `ServiceInfo.Section.Row` — sections back to back, and a rest;
* `ServiceInfo.Walk.Progress` — **how far a walk can have come**.

Main results:

* `ServiceInfo.Walk.Progress.next` — what a step does to it;
* `ServiceInfo.Walk.toList_row` — the sections in front are yielded first, whatever is behind them;
* `ServiceInfo.Walk.splits` — **a walk splits every buffer in the one possible way**.
-/

import ServiceInfo.Proofs.Section.Cuts
import ServiceInfo.Proofs.Section.Framing

set_option relaxedAutoImplicit false
set_option autoImplicit false

namespace ServiceInfo

namespace Section

/-! ### Rows of sections -/

variable {bs rest : Bytes} {ss : List Section} {s : Section}

/-- The bytes of sections, back to back. -/
def bytesOf (ss : List Section) : Bytes := (ss.map bytes).flatten

@[simp] theorem bytesOf_nil : bytesOf [] = [] := rfl

theorem bytesOf_cons (s : Section) (ss : List Section) : bytesOf (s :: ss) = s.bytes ++ bytesOf ss := rfl

theorem bytesOf_append (front back : List Section) :
    bytesOf (front ++ back) = bytesOf front ++ bytesOf back := by
  rw [bytesOf, List.map_append, List.flatten_append]
  rfl

/-- The section has been read, and it does not start like padding. -/
structure IsRead (s : Section) : Prop where
  ofBytes_eq : ofBytes s.bytes = .ok s
  head_ne : s.bytes.head? ≠ some 0xFF

/-- **The buffer starts with the sections `ss`**, back to back, and then comes the rest. -/
structure Row (bs : Bytes) (ss : List Section) (rest : Bytes) : Prop where
  bytes_eq : bs = bytesOf ss ++ rest
  isRead : ∀ s ∈ ss, s.IsRead

theorem IsRead.isWhole (h : s.IsRead) : IsWhole s.bytes := ⟨h.head_ne, s, h.ofBytes_eq, rfl⟩

theorem isRead_of_isWhole {part : Bytes} (h : IsWhole part) :
    ∃ s : Section, s.IsRead ∧ s.bytes = part := by
  obtain ⟨hhead, s, hs, hsize⟩ := h
  obtain ⟨hbytes, -⟩ := bytes_ofBytes hs
  rw [hsize, List.take_length] at hbytes
  exact ⟨s, ⟨ofBytes_bytes hs, hbytes ▸ hhead⟩, hbytes⟩

/-- A section has three bytes at least. -/
theorem IsRead.three_le (h : s.IsRead) : 3 ≤ s.bytes.length := (bytes_ofBytes h.ofBytes_eq).2.1

theorem three_mul_length_le (h : ∀ s ∈ ss, s.IsRead) : 3 * ss.length ≤ (bytesOf ss).length := by
  induction ss with
  | nil => exact Nat.le_refl _
  | cons s ss ih =>
      have hs := (h s List.mem_cons_self).three_le
      have hss := ih fun s' hs' => h s' (List.mem_cons_of_mem _ hs')
      rw [List.length_cons, bytesOf_cons, List.length_append]
      omega

theorem Row.nil (bs : Bytes) : Row bs [] bs := ⟨rfl, nofun⟩

/-- One more section is cut off. -/
theorem Row.snoc (h : Row bs ss rest) (hpadding : ¬ IsPadding rest) (hs : ofBytes rest = .ok s) :
    Row bs (ss ++ [s]) (rest.drop s.size) := by
  obtain ⟨hbytes, -⟩ := bytes_ofBytes hs
  refine ⟨?_, fun s' hs' => ?_⟩
  · rw [bytesOf_append, bytesOf_cons, bytesOf_nil, List.append_nil, List.append_assoc, hbytes,
      List.take_append_drop]
    exact h.bytes_eq
  · rcases List.mem_append.1 hs' with hold | hnew
    · exact h.isRead s' hold
    · obtain rfl := List.mem_singleton.1 hnew
      have hwhole := isWhole_take hpadding hs
      rw [← hbytes] at hwhole
      exact ⟨ofBytes_bytes hs, hwhole.1⟩

theorem Row.take_eq (h : Row bs ss rest) : bs.take (bytesOf ss).length = bytesOf ss := by
  rw [h.bytes_eq, List.take_left]

theorem Row.drop_eq (h : Row bs ss rest) : bs.drop (bytesOf ss).length = rest := by
  rw [h.bytes_eq, List.drop_left]

theorem Row.length_le (h : Row bs ss rest) : (bytesOf ss).length ≤ bs.length := by
  rw [h.bytes_eq, List.length_append]
  exact Nat.le_add_right _ _

/-- **No part of a section is a section**: its length field asks for more. -/
theorem IsRead.exists_error_take (h : s.IsRead) {k : Nat} (hk : k < s.bytes.length) :
    ∃ fault, ofBytes (s.bytes.take k) = .error fault := by
  cases hpart : ofBytes (s.bytes.take k) with
  | error fault => exact ⟨fault, rfl⟩
  | ok t =>
      -- a section that was there would also be read from all of the bytes
      have hfull := ofBytes_append hpart (s.bytes.drop k)
      rw [List.take_append_drop, h.ofBytes_eq] at hfull
      obtain rfl := Except.ok.inj hfull
      have hle := (bytes_ofBytes hpart).2.2
      rw [List.length_take, size] at hle
      omega

end Section

namespace Walk

open Section

/-! ### One call after the other -/

/-- What `n` calls of `next` yield, and the walk after them. -/
def calls : Nat → Walk → List (Except Fault Section) × Walk
  | 0, w => ([], w)
  | n + 1, w => ((calls n w).1 ++ (calls n w).2.next.1.toList, (calls n w).2.next.2)

/-- What the first `n` calls of `next` yield. -/
def yielded (bs : Bytes) (n : Nat) : List (Except Fault Section) := ((start bs).calls n).1

/-- The walk after `n` calls of `next`. -/
def after (bs : Bytes) (n : Nat) : Walk := ((start bs).calls n).2

/-- **How far a walk through `bs` can have come** after `n` calls, and what it has yielded. -/
inductive Progress (bs : Bytes) (n : Nat) : List (Except Fault Section) → Walk → Prop
  /-- Every call has cut off a section. -/
  | underway {ss : List Section} {rest : Bytes} (hrow : Row bs ss rest) (hcount : ss.length = n) :
      Progress bs n (ss.map .ok) ⟨rest, (bytesOf ss).length, false⟩
  /-- Nothing is left, or padding. -/
  | ended {ss : List Section} {rest : Bytes} (hrow : Row bs ss rest) (hpadding : IsPadding rest) :
      Progress bs n (ss.map .ok) ⟨rest, (bytesOf ss).length, true⟩
  /-- What is left is no section, and the walk has said so. -/
  | stopped {ss : List Section} {rest : Bytes} {fault : Fault} (hrow : Row bs ss rest)
      (hpadding : ¬ IsPadding rest) (hfault : ofBytes rest = .error fault) :
      Progress bs n (ss.map .ok ++ [.error fault]) ⟨rest, (bytesOf ss).length, true⟩

variable {bs : Bytes} {n : Nat} {items : List (Except Fault Section)} {w : Walk}

theorem next_of_isPadding {rest : Bytes} (h : IsPadding rest) (offset : Nat) :
    (⟨rest, offset, false⟩ : Walk).next = (none, ⟨rest, offset, true⟩) := by
  have hstart : (⟨rest, offset, false⟩ : Walk).atPadding = true := atPadding_iff.2 h
  simp only [next, hstart, Bool.false_eq_true, if_false, if_true]

theorem next_of_ok {rest : Bytes} {s : Section} (hpadding : ¬ IsPadding rest) (h : ofBytes rest = .ok s)
    (offset : Nat) : (⟨rest, offset, false⟩ : Walk).next =
      (some (.ok s), ⟨rest.drop s.size, offset + s.size, false⟩) := by
  have hstart : (⟨rest, offset, false⟩ : Walk).atPadding = false :=
    Bool.eq_false_iff.2 (mt atPadding_iff.1 hpadding)
  simp only [next, hstart, h, Bool.false_eq_true, if_false]

theorem next_of_error {rest : Bytes} {fault : Fault} (hpadding : ¬ IsPadding rest)
    (h : ofBytes rest = .error fault) (offset : Nat) :
    (⟨rest, offset, false⟩ : Walk).next = (some (.error fault), ⟨rest, offset, true⟩) := by
  have hstart : (⟨rest, offset, false⟩ : Walk).atPadding = false :=
    Bool.eq_false_iff.2 (mt atPadding_iff.1 hpadding)
  simp only [next, hstart, h, Bool.false_eq_true, if_false]

/-- **What a step does**: it cuts off a section, or it ends the walk, or the walk was over. -/
theorem Progress.next (h : Progress bs n items w) :
    Progress bs (n + 1) (items ++ w.next.1.toList) w.next.2 := by
  cases h with
  | @underway ss rest hrow hcount =>
      by_cases hpadding : IsPadding rest
      · rw [next_of_isPadding hpadding, Option.toList_none, List.append_nil]
        exact .ended hrow hpadding
      · cases hs : ofBytes rest with
        | ok s =>
            have hlength : (bytesOf ss).length + s.size = (bytesOf (ss ++ [s])).length := by
              rw [bytesOf_append, bytesOf_cons, bytesOf_nil, List.append_nil, List.length_append, size]
            rw [next_of_ok hpadding hs, Option.toList_some, ← List.map_singleton, ← List.map_append,
              hlength]
            exact .underway (hrow.snoc hpadding hs) (by rw [List.length_append, hcount]; rfl)
        | error fault =>
            rw [next_of_error hpadding hs, Option.toList_some]
            exact .stopped hrow hpadding hs
  | ended hrow hpadding =>
      rw [next_of_isOver rfl, Option.toList_none, List.append_nil]
      exact .ended hrow hpadding
  | stopped hrow hpadding hfault =>
      rw [next_of_isOver rfl, Option.toList_none, List.append_nil]
      exact .stopped hrow hpadding hfault

/-- **So far a walk has come** after `n` calls. -/
theorem progress (bs : Bytes) (n : Nat) : Progress bs n (yielded bs n) (after bs n) := by
  induction n with
  | zero => exact .underway (Row.nil bs) rfl
  | succ n ih => exact ih.next

/-! ### What has been yielded -/

/-- The sections among what has been yielded. -/
def sections (items : List (Except Fault Section)) : List Section := items.filterMap Except.toOption

theorem sections_append (ss : List Section) (fault : Option Fault) :
    sections (ss.map .ok ++ (fault.map .error).toList) = ss := by
  rw [sections, List.filterMap_append, List.filterMap_map]
  cases fault <;> simp [Function.comp_def, Except.toOption]

/-- What has been cut off is in front of what is left, and there is at most one fault, at the end. -/
theorem Progress.exists_row (h : Progress bs n items w) : ∃ ss fault,
    items = ss.map .ok ++ (Option.map .error fault).toList ∧ Row bs ss w.rest ∧
      w.offset = (bytesOf ss).length := by
  cases h with
  | underway hrow => exact ⟨_, none, by simp, hrow, rfl⟩
  | ended hrow => exact ⟨_, none, by simp, hrow, rfl⟩
  | stopped hrow hpadding hfault => exact ⟨_, some _, rfl, hrow, rfl⟩

/-- **When a walk is over**, padding is left and no fault was yielded, or no section is left and a fault
was. -/
theorem Progress.mem_iff (h : Progress bs n items w) (hover : w.isOver = true) :
    (IsPadding w.rest ∨ ∃ fault, ofBytes w.rest = .error fault) ∧
    ∀ fault, .error fault ∈ items ↔ ¬ IsPadding w.rest ∧ ofBytes w.rest = .error fault := by
  cases h with
  | underway => cases hover
  | ended hrow hpadding =>
      refine ⟨.inl hpadding, fun fault => ?_⟩
      simp [hpadding]
  | stopped hrow hpadding hfault =>
      refine ⟨.inr ⟨_, hfault⟩, fun fault => ?_⟩
      simp [hpadding, hfault, eq_comm]

/-- A walk that is not over has cut off a section with every call, three bytes of the buffer at least. -/
theorem Progress.isOver (h : Progress bs n items w) (hn : bs.length < 3 * n) : w.isOver = true := by
  cases h with
  | underway hrow hcount =>
      have hthree := three_mul_length_le hrow.isRead
      have hle := hrow.length_le
      omega
  | ended => rfl
  | stopped => rfl

theorem Progress.isOver_of_mem {fault : Fault} (h : Progress bs n items w)
    (hmem : .error fault ∈ items) : w.isOver = true := by
  cases h with
  | underway => simp at hmem
  | ended => rfl
  | stopped => rfl

/-! ### All of a walk -/

theorem calls_add (m n : Nat) (w : Walk) : w.calls (m + n) =
    ((w.calls m).1 ++ ((w.calls m).2.calls n).1, ((w.calls m).2.calls n).2) := by
  induction n with
  | zero => simp [calls]
  | succ n ih => simp [calls, ih]

theorem calls_of_isOver (h : w.isOver = true) (n : Nat) : w.calls n = ([], w) := by
  induction n with
  | zero => rfl
  | succ n ih => simp [calls, ih, next_of_isOver h]

theorem isOver_of_next {w' : Walk} (h : w.next = (none, w')) : w'.isOver = true := by
  unfold next at h
  split at h
  · next hover =>
      obtain rfl := (Prod.mk.inj h).2
      exact hover
  · split at h
    · obtain rfl := (Prod.mk.inj h).2
      rfl
    · split at h <;> cases h

/-- A run is one call after the other. -/
theorem run_eq_calls (n : Nat) (w : Walk) : run n w = w.calls n := by
  induction n generalizing w with
  | zero => rfl
  | succ n ih =>
      rw [run, Nat.add_comm, calls_add]
      show _ = (w.next.1.toList ++ (w.next.2.calls n).1, (w.next.2.calls n).2)
      cases hnext : w.next with
      | mk item w' =>
          cases item with
          | none =>
              rw [calls_of_isOver (isOver_of_next hnext)]
              rfl
          | some item =>
              simp only [ih]
              rfl

/-- **Nothing happens any more** once a walk is over. -/
theorem yielded_of_isOver (hover : (after bs n).isOver = true) {m : Nat} (hm : n ≤ m) :
    yielded bs m = yielded bs n ∧ after bs m = after bs n ∧ (after bs m).next = (none, after bs m) := by
  obtain ⟨k, rfl⟩ := Nat.exists_eq_add_of_le hm
  have hstill : ((start bs).calls n).2.calls k = ([], ((start bs).calls n).2) := calls_of_isOver hover k
  have hcalls : (start bs).calls (n + k) = (start bs).calls n := by
    rw [calls_add, hstill, List.append_nil]
  have hafter : after bs (n + k) = after bs n := congrArg Prod.snd hcalls
  refine ⟨congrArg Prod.fst hcalls, hafter, ?_⟩
  rw [hafter]
  exact next_of_isOver hover

/-- The end is reached after so many calls as there are sections and one more. -/
theorem isOver_after (hn : bs.length / 3 + 1 ≤ n) : (after bs n).isOver = true :=
  (progress bs n).isOver (by omega)

/-- A walk is over at the latest when a call has yielded nothing, or a fault has been yielded. -/
theorem isOver_of_exists (h : bs.length / 3 + 1 ≤ n ∨ (∃ k < n, (after bs k).next.1 = none) ∨
    ∃ fault, .error fault ∈ yielded bs n) : (after bs n).isOver = true := by
  rcases h with hcount | ⟨k, hk, hnone⟩ | ⟨fault, hfault⟩
  · exact isOver_after hcount
  · have hover : (after bs (k + 1)).isOver = true := isOver_of_next (Prod.ext hnone rfl)
    rw [(yielded_of_isOver hover hk).2.1]
    exact hover
  · exact (progress bs n).isOver_of_mem hfault

/-- Whatever has been yielded when a walk is over is all that it yields. -/
theorem toList_eq_yielded (hover : (after bs n).isOver = true) :
    (start bs).toList = yielded bs n ∧ (start bs).finish = after bs n := by
  have hrun : run ((start bs).rest.length + 2) (start bs) = (yielded bs n, after bs n) := by
    rw [run_eq_calls]
    rcases Nat.le_total n (bs.length + 2) with hle | hge
    · obtain ⟨hyielded, hafter, -⟩ := yielded_of_isOver hover hle
      exact Prod.ext hyielded hafter
    · have hend : (after bs (bs.length + 2)).isOver = true := isOver_after (by omega)
      obtain ⟨hyielded, hafter, -⟩ := yielded_of_isOver hend hge
      exact Prod.ext hyielded.symm hafter.symm
  exact ⟨congrArg Prod.fst hrun, congrArg Prod.snd hrun⟩

/-- **The sections in front are yielded first**, whatever is behind them. -/
theorem toList_row {ss : List Section} (h : ∀ s ∈ ss, s.IsRead) (tail : Bytes) (offset : Nat) :
    (⟨bytesOf ss ++ tail, offset, false⟩ : Walk).toList =
      ss.map .ok ++ (⟨tail, offset + (bytesOf ss).length, false⟩ : Walk).toList := by
  induction ss generalizing offset with
  | nil => rfl
  | cons s ss ih =>
      have hs := h s List.mem_cons_self
      obtain ⟨t, ht, hwalk⟩ := toList_of_isWhole hs.isWhole (bytesOf ss ++ tail) offset
      rw [hs.ofBytes_eq] at ht
      obtain rfl := Except.ok.inj ht
      rw [bytesOf_cons, List.append_assoc, hwalk, ih (fun s' hs' => h s' (List.mem_cons_of_mem _ hs')),
        List.length_append, ← Nat.add_assoc]
      rfl

theorem exists_row_of_cut {parts : List Bytes} {rest : Bytes} (h : Cut bs parts rest) :
    ∃ ss, Row bs ss rest ∧ parts = ss.map Section.bytes := by
  obtain ⟨hbytes, hwhole, -⟩ := h
  suffices hsections : ∃ ss : List Section, (∀ s ∈ ss, s.IsRead) ∧ parts = ss.map Section.bytes by
    obtain ⟨ss, hread, rfl⟩ := hsections
    exact ⟨ss, ⟨hbytes, hread⟩, rfl⟩
  clear hbytes
  induction parts with
  | nil => exact ⟨[], nofun, rfl⟩
  | cons part parts ih =>
      obtain ⟨s, hs, rfl⟩ := isRead_of_isWhole (hwhole part List.mem_cons_self)
      obtain ⟨ss, hss, rfl⟩ := ih fun p hp => hwhole p (List.mem_cons_of_mem _ hp)
      exact ⟨s :: ss, List.forall_mem_cons.2 ⟨hs, hss⟩, rfl⟩

/-- What a walk yields does not depend on how much it has behind it. -/
theorem toList_offset (rest : Bytes) (offset : Nat) :
    (⟨rest, offset, false⟩ : Walk).toList = (start rest).toList := by
  obtain ⟨parts, tail, hcut⟩ := exists_cut rest
  obtain ⟨ss, hrow, -⟩ := exists_row_of_cut hcut
  have htail (o : Nat) : (⟨tail, o, false⟩ : Walk).toList = (start tail).toList := by
    by_cases hpadding : IsPadding tail
    · rw [start, toList_of_isPadding hpadding, toList_of_isPadding hpadding]
    · obtain ⟨fault, hfault⟩ := hcut.stops.resolve_left hpadding
      rw [start, toList_of_error hpadding hfault, toList_of_error hpadding hfault]
  rw [hrow.bytes_eq, start, toList_row hrow.isRead, toList_row hrow.isRead, htail, ← htail]

/-- A walk to the end of a buffer goes on in whatever follows. -/
theorem toList_append {as : Bytes} (hfaultless : ∀ fault, .error fault ∉ (start as).toList)
    (hend : (start as).finish.offset = as.length) (bs : Bytes) :
    (start (as ++ bs)).toList = (start as).toList ++ (start bs).toList := by
  have hover : (after as (as.length / 3 + 1)).isOver = true := isOver_after (Nat.le_refl _)
  obtain ⟨hyielded, hafter⟩ := toList_eq_yielded hover
  obtain ⟨ss, fault, hitems, hrow, hoffset⟩ := (progress as (as.length / 3 + 1)).exists_row
  rw [← hyielded] at hitems
  rw [← hafter] at hrow hoffset
  have hnone : fault = none := by
    refine Option.eq_none_iff_forall_ne_some.2 fun fault' hsome => hfaultless fault' ?_
    rw [hitems, hsome]
    simp
  have hrest : (start as).finish.rest = [] := by
    rw [← hrow.drop_eq, ← hoffset, hend, List.drop_length]
  have hbytes : as = bytesOf ss := by
    rw [hrest] at hrow
    exact hrow.bytes_eq.trans (List.append_nil _)
  rw [hitems, hnone, hbytes, start, toList_row hrow.isRead, toList_offset]
  simp

/-- **There is one way to cut a buffer**, and it is the one in which a walk does. -/
theorem eq_of_cut {parts : List Bytes} {rest : Bytes} (h : Cut bs parts rest) :
    parts = (sections (start bs).toList).map Section.bytes ∧ rest = (start bs).finish.rest := by
  obtain ⟨ss, hrow, rfl⟩ := exists_row_of_cut h
  have hover : (after bs (bs.length / 3 + 1)).isOver = true := isOver_after (Nat.le_refl _)
  obtain ⟨hyielded, hafter⟩ := toList_eq_yielded hover
  obtain ⟨tt, fault, hitems, hwalked, -⟩ := (progress bs (bs.length / 3 + 1)).exists_row
  rw [← hyielded] at hitems
  rw [← hafter] at hwalked
  obtain ⟨fault', hrest⟩ : ∃ fault', (⟨rest, 0 + (bytesOf ss).length, false⟩ : Walk).toList =
      (Option.map Except.error fault').toList := by
    rcases h.exists_toList_rest (0 + (bytesOf ss).length) with ⟨-, hnil⟩ | ⟨-, fault', hfault⟩
    · exact ⟨none, hnil⟩
    · exact ⟨some fault', hfault⟩
  have hsame : ss = tt := by
    have hwalk : (start bs).toList = ss.map .ok ++ (Option.map Except.error fault').toList := by
      rw [start, hrow.bytes_eq, toList_row hrow.isRead, hrest]
    rw [← sections_append ss fault', ← hwalk, hitems, sections_append]
  subst hsame
  rw [hitems, sections_append]
  exact ⟨rfl, hrow.drop_eq.symm.trans hwalked.drop_eq⟩

/-- **A walk splits every buffer in the one possible way.**  After any number of calls of `next` the
sections that have been yielded are, back to back, the bytes in front of the offset, and what is left are
the others; there is at most one fault among what has been yielded, and it is the last.  After a third as
many calls as there are bytes, and one more, the walk is over, and sooner if a call has yielded nothing or
a fault.

When it is over, nothing changes and nothing is yielded any more.  What is left is empty, or starts with
the byte of padding, or else it is no section, and the fault has been yielded exactly in that case.

No part of a section that is yielded, short of all of it, is a section.  A buffer that is walked to its end
is walked in the same way when something follows it.  And however a buffer is cut into sections and a rest,
the sections are those that are yielded, and the rest is what is left. -/
theorem splits :
    (∀ bs n, (after bs n).offset ≤ bs.length ∧ (after bs n).rest = bs.drop (after bs n).offset ∧
      bytesOf (sections (yielded bs n)) = bs.take (after bs n).offset) ∧
    (∀ bs n, ∃ (ss : List Section) (fault : Option Fault),
      yielded bs n = ss.map .ok ++ (fault.map .error).toList) ∧
    (∀ bs n, (bs.length / 3 + 1 ≤ n ∨ (∃ k < n, (after bs k).next.1 = none) ∨
      ∃ fault, .error fault ∈ yielded bs n) → (after bs n).isOver = true) ∧
    (∀ bs n, (after bs n).isOver = true →
      (∀ m, n ≤ m → yielded bs m = yielded bs n ∧ after bs m = after bs n ∧
        (after bs m).next = (none, after bs m)) ∧
      (start bs).toList = yielded bs n ∧ (start bs).finish = after bs n ∧
      (IsPadding (after bs n).rest ∨ ∃ fault, ofBytes (after bs n).rest = .error fault) ∧
      ∀ fault, .error fault ∈ yielded bs n ↔
        ¬ IsPadding (after bs n).rest ∧ ofBytes (after bs n).rest = .error fault) ∧
    (∀ bs n s, .ok s ∈ yielded bs n → ofBytes s.bytes = .ok s ∧
      ∀ k < s.bytes.length, ∃ fault, ofBytes (s.bytes.take k) = .error fault) ∧
    (∀ as bs, (∀ fault, .error fault ∉ (start as).toList) → (start as).finish.offset = as.length →
      (start (as ++ bs)).toList = (start as).toList ++ (start bs).toList) ∧
    ∀ bs parts rest, Cut bs parts rest →
      parts = (sections (start bs).toList).map Section.bytes ∧ rest = (start bs).finish.rest := by
  refine ⟨fun bs n => ?_, fun bs n => ?_, fun bs n => isOver_of_exists, fun bs n hover => ?_,
    fun bs n s hs => ?_, fun as bs hfaultless hend => toList_append hfaultless hend bs,
    fun bs parts rest => eq_of_cut⟩
  · obtain ⟨ss, fault, hitems, hrow, hoffset⟩ := (progress bs n).exists_row
    rw [hitems, sections_append, hoffset]
    exact ⟨hrow.length_le, hrow.drop_eq.symm, hrow.take_eq.symm⟩
  · obtain ⟨ss, fault, hitems, -⟩ := (progress bs n).exists_row
    exact ⟨ss, fault, hitems⟩
  · obtain ⟨hyielded, hafter⟩ := toList_eq_yielded hover
    obtain ⟨hrest, hmem⟩ := (progress bs n).mem_iff hover
    exact ⟨fun m => yielded_of_isOver hover, hyielded, hafter, hrest, hmem⟩
  · obtain ⟨ss, fault, hitems, hrow, -⟩ := (progress bs n).exists_row
    have hmem : s ∈ ss := by
      rw [hitems] at hs
      cases fault <;> simpa using hs
    have hread := hrow.isRead s hmem
    exact ⟨hread.ofBytes_eq, fun k => hread.exists_error_take⟩

/-- A section without payload, and behind it three bytes that announce a longer one. -/
theorem splits_announced :
    (start ([0x70, 0x70, 0] ++ [0x70, 0x70, 9])).toList =
      (start [0x70, 0x70, 0]).toList ++ (start [0x70, 0x70, 9]).toList ∧
    (after [0x70, 0x70, 9] 5).next = (none, after [0x70, 0x70, 9] 5) ∧
    .error (.malformed 12 3) ∈ yielded [0x70, 0x70, 9] 2 ∧
    (∃ fault, ofBytes [0x70, 0x70] = .error fault) ∧
    [[0x70, 0x70, 0]] = (sections (start [0x70, 0x70, 0]).toList).map Section.bytes := by
  obtain ⟨-, -, hends, hover, hparts, happend, hcut⟩ := splits
  have hread : ofBytes [0x70, 0x70, 0] =
      .ok ⟨(Header.short 0x70).setPrivate true, [0x70, 0x70, 0]⟩ := by
    decide +kernel
  have hpart : IsWhole [0x70, 0x70, 0] := ⟨by decide, _, hread, rfl⟩
  have hwhole : (start [0x70, 0x70, 0]).toList =
      [.ok ⟨(Header.short 0x70).setPrivate true, [0x70, 0x70, 0]⟩] := by
    obtain ⟨s, hs, hwalk⟩ := toList_of_isWhole hpart [] 0
    obtain rfl := Except.ok.inj (hread.symm.trans hs)
    rwa [toList_of_isPadding (.inl rfl)] at hwalk
  obtain ⟨-, hitems, -⟩ := hover [0x70, 0x70, 0] 2 (hends _ _ (.inl (by decide)))
  rw [hwhole] at hitems
  obtain ⟨hstill, -, -, -, hfault⟩ := hover [0x70, 0x70, 9] 2 (hends _ _ (.inl (by decide)))
  refine ⟨happend _ _ (by simp [hwhole]) (by decide +kernel), (hstill 5 (by decide)).2.2, ?_, ?_, ?_⟩
  · exact (hfault _).2 ⟨by decide +kernel, by decide +kernel⟩
  · exact (hparts _ 2 _ (hitems ▸ List.mem_cons_self)).2 2 (by decide)
  · exact (hcut _ _ [] ⟨rfl, by simpa using hpart, .inl (.inl rfl)⟩).1

end Walk

end ServiceInfo
