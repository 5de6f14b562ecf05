/-
**Cutting a buffer.**

A buffer is a row of sections and a rest.  Each section is cut off at the length that it declares, which
depends on nothing behind it.  The rest is where cutting stops: at the end of the buffer, at the byte of
padding, or before bytes that are no section.  A walk through the buffer yields the sections of the row,
and then a fault if the rest is of the last kind.

Main definitions:

* `ServiceInfo.Section.IsWhole` — a byte string that is a section and nothing more;
* `ServiceInfo.Section.IsPadding` — the rest of a buffer in which nothing is missing;
* `ServiceInfo.Section.Cut` — **a buffer as a row of sections and a rest**.

Main results:

* `ServiceInfo.Section.ofBytes_append` — a section is read whatever follows it;
* `ServiceInfo.Section.exists_cut` — **every buffer can be cut**;
* `ServiceInfo.Section.Cut.toList_eq` — **a walk yields the sections of the row**, and a fault for a
  rest that is neither empty nor padding.
-/

import ServiceInfo.Section.Walk

set_option relaxedAutoImplicit false
set_option autoImplicit false

namespace ServiceInfo

namespace Section

/-! ### What follows a section -/

theorem declaredSize_append {bs : Bytes} {size : Nat} (h : declaredSize bs = .ok size)
    (tail : Bytes) : declaredSize (bs ++ tail) = .ok size := by
  unfold declaredSize at h
  split at h
  · next high low rest =>
      simp only at h
      split at h
      · next hle =>
          simp only [List.cons_append, declaredSize, List.length_cons, List.length_append] at hle ⊢
          rw [if_pos (by omega)]
          exact h
      · simp at h
  · simp at h

/-- **A section is read whatever follows it.** -/
theorem ofBytes_append {bs : Bytes} {s : Section} (h : ofBytes bs = .ok s) (tail : Bytes) :
    ofBytes (bs ++ tail) = .ok s := by
  obtain ⟨hsize, hbytes, hheader⟩ := ofBytes_eq_ok h
  have htake : (bs ++ tail).take s.size = bs.take s.size :=
    List.take_append_of_le_length (declaredSize_le hsize).2
  unfold ofBytes
  rw [declaredSize_append hsize]
  simp only [bind, Except.bind, htake, hheader]
  rw [← hbytes]
  rfl

/-- **A section is read from its own bytes alone.** -/
theorem ofBytes_bytes {bs : Bytes} {s : Section} (h : ofBytes bs = .ok s) :
    ofBytes s.bytes = .ok s := by
  obtain ⟨hsize, hbytes, hheader⟩ := ofBytes_eq_ok h
  obtain ⟨hthree, hle⟩ := declaredSize_le hsize
  have hdeclared : declaredSize s.bytes = .ok s.size := by
    -- the three bytes that declare the size are there
    obtain ⟨a, b, c, rest, rfl⟩ : ∃ a b c rest, bs = a :: b :: c :: rest := by
      match bs, Nat.le_trans hthree hle with
      | a :: b :: c :: rest, _ => exact ⟨a, b, c, rest, rfl⟩
    obtain ⟨n, hn⟩ : ∃ n, s.size = n + 3 := ⟨s.size - 3, by omega⟩
    have hlength : (a :: b :: c :: rest.take n).length = n + 3 := by
      simp only [List.length_cons, List.length_take] at hle ⊢
      omega
    simp only [declaredSize] at hsize
    split at hsize
    · next hdecl =>
        simp only [Except.ok.injEq] at hsize
        rw [hbytes, hn]
        simp only [List.take_succ_cons, declaredSize, hlength, hsize, hn, Nat.le_refl, if_true]
    · simp at hsize
  have htake : s.bytes.take s.size = s.bytes := List.take_length
  unfold ofBytes
  rw [hdeclared]
  simp only [bind, Except.bind, htake]
  rw [hbytes, hheader, ← hbytes]
  rfl

/-! ### Rows of sections -/

/-- **The byte string is a section and nothing more**, and it does not start like padding. -/
def IsWhole (part : Bytes) : Prop :=
  part.head? ≠ some 0xFF ∧ ∃ s, ofBytes part = .ok s ∧ s.size = part.length

/-- Nothing is left, or padding. -/
def IsPadding (rest : Bytes) : Prop := rest = [] ∨ rest.head? = some 0xFF

instance (rest : Bytes) : Decidable (IsPadding rest) :=
  inferInstanceAs (Decidable (_ ∨ _))

/-- **The buffer is the row `parts` of sections, and then the rest**, which is padding or no
section. -/
structure Cut (bs : Bytes) (parts : List Bytes) (rest : Bytes) : Prop where
  bytes_eq : bs = parts.flatten ++ rest
  isWhole : ∀ part ∈ parts, IsWhole part
  stops : IsPadding rest ∨ ∃ fault, ofBytes rest = .error fault

theorem IsWhole.ne_nil {part : Bytes} (h : IsWhole part) : part ≠ [] := by
  obtain ⟨-, s, hs, hsize⟩ := h
  obtain ⟨-, hthree, -⟩ := bytes_ofBytes hs
  rintro rfl
  rw [hsize] at hthree
  simp at hthree

/-- What is cut off a buffer that does not start like padding is a whole section. -/
theorem isWhole_take {bs : Bytes} {s : Section} (hpadding : ¬ IsPadding bs)
    (hs : ofBytes bs = .ok s) : IsWhole (bs.take s.size) := by
  obtain ⟨hbytes, hthree, hle⟩ := bytes_ofBytes hs
  refine ⟨?_, s, ?_, ?_⟩
  · rw [List.head?_take, if_neg (by omega)]
    exact fun h => hpadding (.inr h)
  · rw [← hbytes]
    exact ofBytes_bytes hs
  · rw [List.length_take]
    omega

/-- **Every buffer can be cut.** -/
theorem exists_cut (bs : Bytes) : ∃ parts rest, Cut bs parts rest := by
  -- each section that is cut off leaves a shorter buffer
  induction hn : bs.length using Nat.strongRecOn generalizing bs with
  | _ n ih =>
      by_cases hpadding : IsPadding bs
      · exact ⟨[], bs, rfl, nofun, .inl hpadding⟩
      · cases hs : ofBytes bs with
        | error fault => exact ⟨[], bs, rfl, nofun, .inr ⟨fault, hs⟩⟩
        | ok s =>
            obtain ⟨-, hthree, hle⟩ := bytes_ofBytes hs
            obtain ⟨parts, rest, hcut⟩ := ih (bs.drop s.size).length
              (by rw [List.length_drop]; omega) (bs.drop s.size) rfl
            refine ⟨bs.take s.size :: parts, rest, ?_, ?_, hcut.stops⟩
            · rw [List.flatten_cons, List.append_assoc, ← hcut.bytes_eq, List.take_append_drop]
            · intro part hpart
              rcases List.mem_cons.1 hpart with rfl | hpart
              · exact isWhole_take hpadding hs
              · exact hcut.isWhole part hpart

/-! ### Walks -/

theorem atPadding_iff {w : Walk} : w.atPadding = true ↔ IsPadding w.rest := by
  unfold Walk.atPadding IsPadding
  cases w.rest <;> simp

/-- A walk that stands before a whole section yields it and goes on behind it. -/
theorem toList_of_isWhole {part : Bytes} (h : IsWhole part) (tail : Bytes) (offset : Nat) :
    ∃ s, ofBytes part = .ok s ∧ (⟨part ++ tail, offset, false⟩ : Walk).toList =
      .ok s :: (⟨tail, offset + part.length, false⟩ : Walk).toList := by
  have hne := h.ne_nil
  obtain ⟨hhead, s, hs, hsize⟩ := h
  refine ⟨s, hs, ?_⟩
  have hpadding : (⟨part ++ tail, offset, false⟩ : Walk).atPadding = false := by
    rw [Bool.eq_false_iff, Ne, atPadding_iff]
    rintro (hnil | hstart)
    · exact hne (List.append_eq_nil_iff.1 hnil).1
    · obtain ⟨b, rest, rfl⟩ := List.exists_cons_of_ne_nil hne
      exact hhead hstart
  rw [Walk.toList_eq]
  simp only [Walk.next, hpadding, Bool.false_eq_true, if_false, ofBytes_append hs tail, hsize,
    List.drop_left]

/-- A walk that stands before padding yields nothing. -/
theorem toList_of_isPadding {rest : Bytes} (h : IsPadding rest) (offset : Nat) :
    (⟨rest, offset, false⟩ : Walk).toList = [] := by
  have hpadding : (⟨rest, offset, false⟩ : Walk).atPadding = true := atPadding_iff.2 h
  rw [Walk.toList_eq]
  simp only [Walk.next, hpadding, Bool.false_eq_true, if_false, if_true]

/-- A walk that stands before bytes that are no section yields the fault and is over. -/
theorem toList_of_error {rest : Bytes} {fault : Fault} (hpadding : ¬ IsPadding rest)
    (h : ofBytes rest = .error fault) (offset : Nat) :
    (⟨rest, offset, false⟩ : Walk).toList = [.error fault] := by
  have hstart : (⟨rest, offset, false⟩ : Walk).atPadding = false := by
    rw [Bool.eq_false_iff, Ne, atPadding_iff]
    exact hpadding
  have hover : (⟨rest, offset, true⟩ : Walk).toList = [] := by
    rw [Walk.toList_eq, Walk.next_of_isOver rfl]
  rw [Walk.toList_eq]
  simp only [Walk.next, hstart, Bool.false_eq_true, if_false, h, hover]

/-- What a walk yields for the rest of a buffer: nothing for padding, or else one fault. -/
theorem Cut.exists_toList_rest {bs : Bytes} {parts : List Bytes} {rest : Bytes}
    (h : Cut bs parts rest) (offset : Nat) :
    (IsPadding rest ∧ (⟨rest, offset, false⟩ : Walk).toList = []) ∨
      (¬ IsPadding rest ∧ ∃ fault, (⟨rest, offset, false⟩ : Walk).toList = [.error fault]) := by
  by_cases hpadding : IsPadding rest
  · exact .inl ⟨hpadding, toList_of_isPadding hpadding offset⟩
  · obtain ⟨fault, hfault⟩ := h.stops.resolve_left hpadding
    exact .inr ⟨hpadding, fault, toList_of_error hpadding hfault offset⟩

end Section

end ServiceInfo
