/-
**A buffer and its parts.**

A buffer of sections may be handed to a router as a whole or cut up, one section at a time.  It comes to
the same: the application is asked the same questions in the same order, and the receivers end up in the
same states, whatever they do to the registry on the way.  The tally of the buffer counts the results of
its parts, and it says apart from them whether the rest had to be given up.

Bytes that are refused are refused before anybody is asked.  Whether they are depends on the bytes and the
settings alone, and the router stays as it was.

Main definitions:

* `ServiceInfo.Settings.accept` — the section at the front of some bytes, unless it is refused;
* `ServiceInfo.Router.routeEach` — byte strings handed to a router one after the other;
* `ServiceInfo.Router.Tally.ofResults` — what became of them, counted.

Main results:

* `ServiceInfo.Router.routeBytes_eq` — bytes are looked at first, and then the section is passed on;
* `ServiceInfo.Router.foldl_routeItem` — a walk passes on what the parts contain;
* `ServiceInfo.Router.routeBuffer_eq_routeEach` — **a buffer comes to the same as its parts**.
-/

import ServiceInfo.Proofs.Router.Matching
import ServiceInfo.Proofs.Section.Cuts

set_option relaxedAutoImplicit false
set_option autoImplicit false

namespace ServiceInfo

/-! ### What is refused -/

/-- The section at the front of some bytes, unless there is none or the settings refuse it. -/
def Settings.accept (settings : Settings) (bs : Bytes) : Except Fault Section := do
  let s ← Section.ofBytes bs
  if settings.verifyChecksum then s.verify
  return s

namespace Router

variable {σ δ : Type} (app : Application σ δ)

/-- **Bytes are looked at first**, and the router does something only with a section that is accepted. -/
theorem routeBytes_eq (r : Router σ δ) (bs : Bytes) :
    r.routeBytes app bs = match r.settings.accept bs with
      | .ok s => ((r.route app s).1, .ok (r.route app s).2)
      | .error fault => (r, .error fault) := by
  unfold routeBytes Settings.accept
  cases Section.ofBytes bs with
  | error fault => rfl
  | ok s =>
      simp only [bind, Except.bind]
      cases r.settings.verifyChecksum with
      | false => rfl
      | true =>
          simp only [if_true]
          cases s.verify <;> rfl

/-- Hand byte strings to the router one after the other. -/
def routeEach (r : Router σ δ) : List Bytes → Router σ δ × List (Except Fault Outcome)
  | [] => (r, [])
  | bs :: rest =>
      let (r, result) := r.routeBytes app bs
      let (r, results) := routeEach r rest
      (r, result :: results)

/-! ### Counting -/

/-- Count one more result. -/
def Tally.count (tally : Tally) : Except Fault Outcome → Tally
  | .ok .passed => { tally with passed := tally.passed + 1 }
  | .ok .unclaimed => { tally with unclaimed := tally.unclaimed + 1 }
  | .error (.badChecksum _) => { tally with damaged := tally.damaged + 1 }
  | .error _ => tally

/-- The results counted. -/
def Tally.ofResults (results : List (Except Fault Outcome)) : Tally where
  passed := results.countP (· matches .ok .passed)
  unclaimed := results.countP (· matches .ok .unclaimed)
  damaged := results.countP (· matches .error (.badChecksum _))

theorem Tally.foldl_count (tally : Tally) (results : List (Except Fault Outcome)) :
    results.foldl Tally.count tally =
      { passed := tally.passed + (ofResults results).passed
        unclaimed := tally.unclaimed + (ofResults results).unclaimed
        malformed := tally.malformed
        damaged := tally.damaged + (ofResults results).damaged } := by
  induction results generalizing tally with
  | nil => rfl
  | cons result results ih =>
      rw [List.foldl_cons, ih]
      cases result with
      | ok outcome => cases outcome <;> simp [count, ofResults, Nat.add_assoc, Nat.add_comm 1]
      | error fault => cases fault <;> simp [count, ofResults, Nat.add_assoc, Nat.add_comm 1]

/-! ### One section of a buffer -/

variable {r r' : Router σ δ}

/-- A section of a buffer is passed on or dropped as it is when its bytes are handed over alone. -/
theorem routeItem_ok (h : r.Matches Eq id r') {part : Bytes} {s : Section}
    (hs : Section.ofBytes part = .ok s) (tally : Tally) :
    (routeItem app (r, tally) (.ok s)).1.Matches Eq id (r'.routeBytes app part).1 ∧
      (routeItem app (r, tally) (.ok s)).2 = tally.count (r'.routeBytes app part).2 := by
  obtain ⟨houtcome, hroute⟩ := h.route (Application.Matches.refl app) s
  -- either the section is taken, or its checksum is wrong
  have haccept : (r'.settings.accept part = .ok s ∧
        (if r.settings.verifyChecksum then s.verify else .ok ()) = .ok ()) ∨
      ∃ carried, r'.settings.accept part = .error (.badChecksum carried) ∧
        (if r.settings.verifyChecksum then s.verify else .ok ()) =
          .error (.badChecksum carried) := by
    simp only [Settings.accept, hs, bind, Except.bind, h.settings_eq]
    cases r'.settings.verifyChecksum with
    | false => exact .inl ⟨rfl, rfl⟩
    | true =>
        simp only [if_true, Section.verify]
        cases s.intact with
        | true => exact .inl ⟨rfl, rfl⟩
        | false => exact .inr ⟨_, rfl, rfl⟩
  rcases haccept with ⟨haccept, hverify⟩ | ⟨carried, haccept, hverify⟩
  · simp only [routeItem, routeBytes_eq, haccept, hverify]
    cases hx : r.route app s with
    | mk x outcome =>
        rw [hx] at houtcome hroute
        rw [← houtcome]
        cases outcome <;> exact ⟨hroute, rfl⟩
  · simp only [routeItem, routeBytes_eq, haccept, hverify]
    exact ⟨h.note_left _, rfl⟩

/-! ### Whole buffers -/

/-- **A walk passes on what the parts contain**, and stands before the rest then. -/
theorem foldl_routeItem {parts : List Bytes} (hparts : ∀ part ∈ parts, Section.IsWhole part)
    (rest : Bytes) (h : r.Matches Eq id r') (tally : Tally) (offset : Nat) :
    ∃ x offset', ((⟨parts.flatten ++ rest, offset, false⟩ : Walk).toList.foldl (routeItem app)
        (r, tally)) =
      (⟨rest, offset', false⟩ : Walk).toList.foldl (routeItem app)
        (x, (r'.routeEach app parts).2.foldl Tally.count tally) ∧
      x.Matches Eq id (r'.routeEach app parts).1 := by
  induction parts generalizing r r' tally offset with
  | nil => exact ⟨r, offset, rfl, h⟩
  | cons part parts ih =>
      obtain ⟨s, hs, hwalk⟩ := Section.toList_of_isWhole (hparts part List.mem_cons_self)
        (parts.flatten ++ rest) offset
      obtain ⟨hnext, hcount⟩ := routeItem_ok app h hs tally
      rw [List.flatten_cons, List.append_assoc, hwalk, List.foldl_cons]
      cases hitem : routeItem app (r, tally) (.ok s) with
      | mk y count =>
          rw [hitem] at hnext hcount
          simp only at hnext hcount
          subst hcount
          exact ih (fun p hp => hparts p (List.mem_cons_of_mem _ hp)) hnext _ _

/-- **A buffer comes to the same as its parts.**  Every buffer is a row of sections and a rest.  However
it is cut, passing it on as a whole leaves the registry, the receivers and the application as handing over
the parts one after the other does, and the tally counts the results of the parts; the rest makes a
difference to the tally only, if there is one that is not padding.  Since the application may be one that
writes down all that it is asked, it is asked the same in the same order.  Bytes are refused on account of
the settings and of nothing else, and when they are, everything stays as it was. -/
theorem routeBuffer_eq_routeEach (app : Application σ δ) (r : Router σ δ) (bs : Bytes) :
    (∃ parts rest, Section.Cut bs parts rest) ∧
    (∀ parts rest, Section.Cut bs parts rest →
      (r.routeBuffer app bs).1.registry = (r.routeEach app parts).1.registry ∧
      (r.routeBuffer app bs).1.state = (r.routeEach app parts).1.state ∧
      (r.routeBuffer app bs).1.settings = (r.routeEach app parts).1.settings ∧
      (r.routeBuffer app bs).2 = { Tally.ofResults (r.routeEach app parts).2 with
        malformed := if Section.IsPadding rest then 0 else 1 }) ∧
    ∀ part fault, (r.routeBytes app part).2 = .error fault ↔
      r.settings.accept part = .error fault ∧ r.routeBytes app part = (r, .error fault) := by
  refine ⟨Section.exists_cut bs, ?_, ?_⟩
  · intro parts rest hcut
    obtain ⟨x, offset, hfold, hx⟩ := foldl_routeItem app hcut.isWhole rest
      (Matches.refl r) {} 0
    rw [← hcut.bytes_eq] at hfold
    simp only [routeBuffer, Walk.start]
    rw [hfold, Tally.foldl_count]
    have hregistry := hx.registry_eq
    rw [Registry.map_id] at hregistry
    rcases hcut.exists_toList_rest offset with ⟨hpadding, hwalk⟩ | ⟨hpadding, fault, hwalk⟩
    · rw [hwalk, if_pos hpadding]
      exact ⟨hregistry, hx.state, hx.settings_eq, by simp⟩
    · rw [hwalk, if_neg hpadding]
      exact ⟨hregistry, hx.state, hx.settings_eq, by simp [routeItem]⟩
  · intro part fault
    simp only [routeBytes_eq]
    cases r.settings.accept part <;> simp

end Router

end ServiceInfo
