/-
**Watching a registry.**

While a receiver handles a section it is out of the registry, which only remembers that it is busy and
whether it has been detached.  It may detach itself meanwhile, attach another in its place, detach that
again, and so on, and so may everybody else.  To see that none of this can be noticed an application is
watched.  Its receivers are numbered as they are asked to be attached, and everything is entered in a
record.  The application knows nothing of it and does what it would do anyway.

The record is plain at every moment, and the registry is as the record says: whoever listens by the record
is in the registry or busy, and the busy receiver is marked as detached if it does not listen any more.

Main definitions:

* `ServiceInfo.Application.watched` — an application that is watched;
* `ServiceInfo.Router.Call`, `ServiceInfo.Router.calls` — requests and sections from outside, and runs;
* `ServiceInfo.Router.watchAll` — runs that are watched;
* `ServiceInfo.Registry.Follows` — **the registry is as its record says**.

Main results:

* `ServiceInfo.Router.Watches.perform`, `ServiceInfo.Router.Watches.route` — every request and every
  section keeps the registry as its record says;
* `ServiceInfo.Router.Watches.watchAll` — **so does every run**.
-/

import ServiceInfo.Proofs.Router.Matching
import ServiceInfo.Proofs.Router.Record

set_option relaxedAutoImplicit false
set_option autoImplicit false

namespace ServiceInfo

variable {σ δ : Type}

/-! ### Numbers -/

/-- A receiver, and the number of the request that attached it. -/
structure Numbered (δ : Type) where
  number : Nat
  receiver : δ

namespace Request

/-- How many receivers are to be attached. -/
def attaches : Request δ → Nat
  | attach .. => 1
  | detach _ | contains _ | keys => 0

/-- Number the receivers that are to be attached, from `n` on. -/
def number (n : Nat) : List (Request δ) → List (Request (Numbered δ))
  | [] => []
  | request :: requests => request.map (Numbered.mk n) :: number (n + request.attaches) requests

theorem map_receiver (n : Nat) (request : Request δ) :
    (request.map (Numbered.mk n)).map Numbered.receiver = request := by
  cases request <;> rfl

theorem map_number (n : Nat) (request : Request δ) :
    (request.map (Numbered.mk n)).map Numbered.number = request.map fun _ => n := by
  cases request <;> rfl

/-- Who forgets the numbers has the requests as they were. -/
theorem map_receiver_number (n : Nat) (requests : List (Request δ)) :
    (number n requests).map (Request.map Numbered.receiver) = requests := by
  induction requests generalizing n with
  | nil => rfl
  | cons request requests ih => rw [number, List.map_cons, map_receiver, ih]

end Request

/-! ### Watching -/

/-- The state of an application that is watched. -/
structure Watched (σ : Type) where
  state : σ
  record : Record := []
  /-- The receivers that have been released since the last entry. -/
  released : List Nat := []

/-- Enter something in the record. -/
def Watched.enter (w : Watched σ) (happening : Happening) : Watched σ :=
  { w with record := w.record ++ [⟨happening, w.released⟩], released := [] }

/-- **An application that is watched.**  It is asked what it would be asked anyway, and everything is
entered in the record. -/
def Application.watched (app : Application σ δ) : Application (Watched σ) (Numbered δ) where
  onSection := fun registry s sect w d =>
    let turn := app.onSection (registry.map Numbered.receiver) s sect w.state d.receiver
    let w := { w with state := turn.state }.enter (.gathered s d.number)
    { state := w
      receiver := { d with receiver := turn.receiver }
      notices := turn.notices
      requests := Request.number w.record.account.attaches turn.requests }
  onNewcomer := fun registry s w =>
    let (state, requests) := app.onNewcomer (registry.map Numbered.receiver) s w.state
    ({ w with state }, Request.number w.record.account.attaches requests)
  onBreak := fun s w d =>
    let (state, receiver) := app.onBreak s w.state d.receiver
    ({ w with state }, { d with receiver })
  onRelease := fun s w d =>
    { w with
      state := app.onRelease s w.state d.receiver
      released := w.released ++ [d.number] }
  onAnswer := fun request answer w =>
    { w with state := app.onAnswer (request.map Numbered.receiver) answer w.state }.enter
      (.answered (request.map Numbered.number) answer)

/-- **Watching changes nothing.** -/
theorem Application.watched_matches (app : Application σ δ) :
    app.watched.Matches (fun w state => w.state = state) Numbered.receiver app where
  onSection registry s sect d h := by
    subst h
    exact ⟨rfl, rfl, Request.map_receiver_number _ _⟩
  onNewcomer registry s h := by
    subst h
    exact ⟨rfl, Request.map_receiver_number _ _⟩
  onRelease s d h := by
    subst h
    rfl
  onAnswer request answer h := by
    subst h
    rfl

namespace Router

/-! ### Runs -/

/-- What a router can be given from outside: a request, or a section to pass on. -/
inductive Call (δ : Type) where
  | ask (request : Request δ)
  | route (s : Section)

/-- What a call does. -/
def call (app : Application σ δ) (r : Router σ δ) : Call δ → Router σ δ
  | .ask request => (r.perform app request).1
  | .route s => (r.route app s).1

/-- What many calls do. -/
def calls (app : Application σ δ) (r : Router σ δ) (cs : List (Call δ)) : Router σ δ :=
  cs.foldl (call app) r

/-- What a call does when it is watched. -/
def watch (app : Application σ δ) (r : Router (Watched σ) (Numbered δ)) :
    Call δ → Router (Watched σ) (Numbered δ)
  | .ask request =>
      let request := request.map (Numbered.mk r.state.record.account.attaches)
      let (r, answer) := r.perform app.watched request
      { r with state := r.state.enter (.answered (request.map Numbered.number) answer) }
  | .route s =>
      let (r, outcome) := r.route app.watched s
      { r with state := r.state.enter (.returned s.subtable outcome) }

/-- What many calls do when they are watched. -/
def watchAll (app : Application σ δ) (r : Router (Watched σ) (Numbered δ)) (cs : List (Call δ)) :
    Router (Watched σ) (Numbered δ) :=
  cs.foldl (watch app) r

variable (app : Application σ δ)

theorem Matches.watch {r : Router (Watched σ) (Numbered δ)} {r' : Router σ δ}
    (h : r.Matches (fun w state => w.state = state) Numbered.receiver r') (c : Call δ) :
    (r.watch app c).Matches (fun w state => w.state = state) Numbered.receiver (r'.call app c) := by
  cases c with
  | ask request =>
      obtain ⟨-, hnext⟩ := h.perform app.watched_matches
        (request.map (Numbered.mk r.state.record.account.attaches))
      rw [Request.map_receiver] at hnext
      exact ⟨hnext.registry_eq, hnext.settings_eq, hnext.state⟩
  | route s =>
      obtain ⟨-, hnext⟩ := h.route app.watched_matches s
      exact ⟨hnext.registry_eq, hnext.settings_eq, hnext.state⟩

theorem Matches.watchAll {r : Router (Watched σ) (Numbered δ)} {r' : Router σ δ}
    (h : r.Matches (fun w state => w.state = state) Numbered.receiver r') (cs : List (Call δ)) :
    (r.watchAll app cs).Matches (fun w state => w.state = state) Numbered.receiver
      (r'.calls app cs) := by
  induction cs generalizing r r' with
  | nil => exact h
  | cons c cs ih => exact ih (h.watch app c)

end Router

/-! ### Registries and their records -/

namespace Registry

/-- **The registry is as its record says.**  The record is plain; who listens by the record is who listens
by the registry; and the receiver that is busy is the one that is handling a section, which has been
detached if it does not listen any more. -/
structure Follows (registry : Registry (Numbered δ)) (record : Record) : Prop where
  plain : record.IsPlain
  sound : registry.Sound
  listeners_eq : registry.listeners Numbered.number (record.account.serving.map Prod.snd) =
    record.account.listeners
  busy_eq : registry.busy = record.account.serving.map fun p =>
    ⟨p.1, decide (record.account.listeners p.1 ≠ some p.2)⟩

theorem follows_nil : (empty : Registry (Numbered δ)).Follows [] where
  plain := Record.isPlain_nil
  sound := sound_empty
  listeners_eq := rfl
  busy_eq := rfl

namespace Follows

variable {registry : Registry (Numbered δ)} {record : Record} {s : Subtable} {d : Numbered δ}

/-- While no section is being handled, no receiver is busy. -/
theorem busy_eq_none (h : registry.Follows record) (hserving : record.account.serving = none) :
    registry.busy = none := by
  rw [h.busy_eq, hserving, Option.map_none]

/-- While no section is being handled, the registry holds those who listen. -/
theorem listeners_eq_find? (h : registry.Follows record)
    (hserving : record.account.serving = none) (s : Subtable) :
    record.account.listeners s = (registry.find? s).map Numbered.number := by
  rw [← h.listeners_eq, listeners_of_busy_eq_none (h.busy_eq_none hserving)]

/-- Whether somebody listens is what the record says. -/
theorem contains_eq (h : registry.Follows record) (s : Subtable) :
    registry.contains s = (record.account.listeners s).isSome := by
  rw [← h.listeners_eq]
  refine contains_eq_isSome ?_ s
  intro hbusy hserving
  simp [busySubtable, h.busy_eq_none (Option.map_eq_none_iff.1 hserving)] at hbusy

theorem listeners_eq_none (h : registry.Follows record) (hs : registry.contains s = false) :
    record.account.listeners s = none := by
  rw [h.contains_eq] at hs
  exact Option.not_isSome_iff_eq_none.1 (by simp [hs])

/-- The busy receiver listens, unless it has been detached. -/
theorem serving_of_busySubtable (h : registry.Follows record)
    (hs : registry.busySubtable = some s) :
    ∃ n, record.account.serving = some (s, n) ∧ record.account.listeners s = some n := by
  cases hserving : record.account.serving with
  | none =>
      rw [busySubtable, h.busy_eq, hserving] at hs
      simp at hs
  | some p =>
      obtain ⟨t, n⟩ := p
      rw [busySubtable, h.busy_eq, hserving] at hs
      by_cases hlistens : record.account.listeners t = some n
      · obtain rfl : t = s := by simpa [hlistens] using hs
        exact ⟨n, rfl, hlistens⟩
      · simp [hlistens] at hs

/-- A receiver that is not busy listens, and it is not the one that is handling a section. -/
theorem idle (h : registry.Follows record) (hs : registry.busySubtable ≠ some s)
    (hd : registry.find? s = some d) :
    record.account.listeners s = some d.number ∧
      record.account.serving.map Prod.snd ≠ some d.number := by
  have hlistens : record.account.listeners s = some d.number := by
    rw [← h.listeners_eq, listeners, if_neg hs, hd, Option.map_some]
  refine ⟨hlistens, fun hserving => hs ?_⟩
  have heq := h.plain.consistent.serving_eq hlistens hserving
  simp [busySubtable, h.busy_eq, heq, hlistens]

/-! ### Requests -/

/-- Nothing changes but the record, and not what it says about those who listen. -/
theorem keep (h : registry.Follows record) {e : Entry}
    (hfits : record.account.Fits e.happening)
    (hreleased : e.released = record.account.releases e.happening)
    (hlisteners : (record.account.after e).listeners = record.account.listeners)
    (hserving : (record.account.after e).serving = record.account.serving) :
    registry.Follows (record ++ [e]) := by
  refine ⟨h.plain.snoc hfits hreleased, h.sound, ?_, ?_⟩
  · rw [Record.account_snoc, hlisteners, hserving]
    exact h.listeners_eq
  · rw [Record.account_snoc, hlisteners, hserving]
    exact h.busy_eq

/-- The busy receiver is marked as before if it neither comes nor goes. -/
theorem busy_congr (h : registry.Follows record) {listeners : Subtable → Option Nat}
    (hsame : ∀ s n, record.account.serving = some (s, n) →
      (listeners s = some n ↔ record.account.listeners s = some n)) :
    registry.busy = record.account.serving.map fun p => ⟨p.1, decide (listeners p.1 ≠ some p.2)⟩ := by
  rw [h.busy_eq]
  cases hserving : record.account.serving with
  | none => rfl
  | some p => simp only [Option.map_some, ne_eq, hsame p.1 p.2 hserving]

/-- A receiver is attached where nobody listened. -/
theorem attach (h : registry.Follows record) (hs : registry.contains s = false) (receiver : δ) :
    Follows ⟨insertEntry s ⟨record.account.attaches, receiver⟩ registry.entries, registry.busy⟩
      (record ++ [⟨.answered (.attach s record.account.attaches) (.done none), []⟩]) := by
  have hnone := h.listeners_eq_none hs
  have hafter : record.account.after
      ⟨.answered (.attach s record.account.attaches) (.done none), []⟩ =
        { record.account with
          listeners :=
            Function.update record.account.listeners s (some record.account.attaches)
          attaches := record.account.attaches + 1 } := by
    simp [Account.after, hnone]
  refine ⟨h.plain.snoc ⟨rfl, by rw [hnone]; rfl⟩ rfl, h.sound.insert hs _, ?_, ?_⟩
  · rw [Record.account_snoc, hafter, ← h.listeners_eq]
    exact listeners_insert hs Numbered.number _ _
  · rw [Record.account_snoc, hafter]
    exact h.busy_congr fun _ _ ht => h.plain.consistent.serving_come hnone ht

/-- A busy receiver is detached, and goes when it is done. -/
theorem detach_busy (h : registry.Follows record) (hs : registry.busySubtable = some s) :
    Follows { registry with busy := some ⟨s, true⟩ }
      (record ++ [⟨.answered (.detach s) (.done none), []⟩]) := by
  obtain ⟨n, hserving, hlistens⟩ := h.serving_of_busySubtable hs
  have hafter : record.account.after ⟨.answered (.detach s) (.done none), []⟩ =
      { record.account with
        listeners := Function.update record.account.listeners s none
        removed := record.account.removed ++ [n] } := by
    simp [Account.after, hlistens]
  refine ⟨h.plain.snoc ?_ ?_, h.sound.remove_busy s, ?_, ?_⟩
  · simp [Account.Fits, hlistens]
  · simp [Account.releases, hlistens, hserving]
  · rw [Record.account_snoc, hafter, ← h.listeners_eq]
    exact listeners_remove_busy h.sound hs Numbered.number _
  · rw [Record.account_snoc, hafter]
    simp [hserving]

/-- A receiver that is not busy is detached, and goes. -/
theorem detach_idle (h : registry.Follows record) (hs : registry.busySubtable ≠ some s)
    (hd : registry.find? s = some d) :
    (registry.erase s).Follows
      (record ++ [⟨.answered (.detach s) (.done none), [d.number]⟩]) := by
  obtain ⟨hlistens, hidle⟩ := h.idle hs hd
  have hafter : record.account.after ⟨.answered (.detach s) (.done none), [d.number]⟩ =
      { record.account with
        listeners := Function.update record.account.listeners s none
        removed := record.account.removed ++ [d.number]
        released := record.account.released ++ [d.number] } := by
    simp [Account.after, hlistens]
  refine ⟨h.plain.snoc ?_ ?_, h.sound.erase s, ?_, ?_⟩
  · simp [Account.Fits, hlistens]
  · simp [Account.releases, hlistens, Ne.symm hidle]
  · rw [Record.account_snoc, hafter, ← h.listeners_eq]
    exact listeners_erase hs Numbered.number _
  · rw [Record.account_snoc, hafter]
    exact h.busy_congr fun _ _ ht => h.plain.consistent.serving_go hlistens hidle ht

/-- Nobody is detached where nobody listens. -/
theorem detach_refused (h : registry.Follows record) (hs : registry.contains s = false) :
    registry.Follows (record ++ [⟨.answered (.detach s) (.done (some (.notAttached s))), []⟩]) := by
  have hnone := h.listeners_eq_none hs
  refine h.keep ?_ ?_ ?_ rfl
  · simp [Account.Fits, hnone]
  · simp [Account.releases, hnone]
  · simp [Account.after, ← hnone]

/-- The answer to a request for the keys lists those who listen. -/
theorem keys (h : registry.Follows record) :
    registry.Follows
      (record ++ [⟨.answered .keys (.listing registry.size registry.keys), []⟩]) := by
  refine h.keep ⟨registry.keys, ?_, pairwise_keys h.sound, ?_⟩ rfl rfl rfl
  · rw [length_keys]
  · intro s
    rw [mem_keys_iff, h.contains_eq]

/-! ### Sections -/

/-- A receiver is taken out to handle a section. -/
theorem takeOut (h : registry.Follows record) (hserving : record.account.serving = none)
    (hd : registry.find? s = some d) :
    Follows { registry.erase s with busy := some ⟨s, false⟩ }
      (record ++ [⟨.gathered s d.number, []⟩]) := by
  have hbusy := h.busy_eq_none hserving
  have hlistens : record.account.listeners s = some d.number := by
    rw [h.listeners_eq_find? hserving, hd, Option.map_some]
  have hafter : record.account.after ⟨.gathered s d.number, []⟩ =
      { record.account with serving := some (s, d.number) } := by
    simp [Account.after]
  refine ⟨h.plain.snoc ⟨hserving, hlistens⟩ rfl, h.sound.takeOut s, ?_, ?_⟩
  · rw [Record.account_snoc, hafter, ← h.listeners_eq]
    exact listeners_takeOut hbusy hd Numbered.number _
  · rw [Record.account_snoc, hafter]
    simp [hlistens]

/-- A receiver is done with a section, and is put back or released. -/
theorem putBack (h : registry.Follows record)
    (hserving : record.account.serving = some (s, d.number)) :
    (registry.putBack s d).1.Follows
      (record ++
        [⟨.returned s .passed, (registry.putBack s d).2.toList.map Numbered.number⟩]) := by
  have hfits : record.account.Fits (.returned s .passed) := by
    rw [Account.Fits, hserving]
    exact ⟨rfl, rfl⟩
  have hafter : ∀ released, record.account.after ⟨.returned s .passed, released⟩ =
      { record.account with serving := none, released := record.account.released ++ released } :=
    fun _ => rfl
  by_cases hlistens : record.account.listeners s = some d.number
  · have hbusy : registry.busy = some ⟨s, false⟩ := by simp [h.busy_eq, hserving, hlistens]
    have hput : registry.putBack s d = (⟨insertEntry s d registry.entries, none⟩, none) := by
      simp only [Registry.putBack, hbusy]
    rw [hput]
    refine ⟨h.plain.snoc hfits ?_, h.sound.putBack s d, ?_, ?_⟩
    · simp [Account.releases, Account.due, hserving, hlistens]
    · rw [Record.account_snoc, hafter, ← h.listeners_eq, hserving]
      exact listeners_putBack hbusy Numbered.number d _
    · rw [Record.account_snoc, hafter]
      rfl
  · have hbusy : registry.busy = some ⟨s, true⟩ := by simp [h.busy_eq, hserving, hlistens]
    have hput : registry.putBack s d = ({ registry with busy := none }, some d) := by
      simp only [Registry.putBack, hbusy]
    rw [hput]
    refine ⟨h.plain.snoc hfits ?_, h.sound.drop, ?_, ?_⟩
    · simp [Account.releases, Account.due, hserving, hlistens]
    · rw [Record.account_snoc, hafter, ← h.listeners_eq]
      exact listeners_drop hbusy Numbered.number _ _
    · rw [Record.account_snoc, hafter]
      rfl

end Follows

end Registry

/-! ### Routers that are watched -/

namespace Router

/-- The registry is as the record says, and everything has been entered. -/
structure Watches (r : Router (Watched σ) (Numbered δ)) : Prop where
  follows : r.registry.Follows r.state.record
  released : r.state.released = []

namespace Watches

variable (app : Application σ δ) {r : Router (Watched σ) (Numbered δ)}

/-- **Every answer is that of a plain partial map**, and so is the registry afterwards. -/
theorem perform (h : r.Watches) (request : Request δ) {r' : Router (Watched σ) (Numbered δ)}
    {answer : Answer}
    (hperform : r.perform app.watched
      (request.map (Numbered.mk r.state.record.account.attaches)) = (r', answer)) :
    r'.state.record = r.state.record ∧
      r'.registry.Follows (r.state.record ++
        [⟨.answered (request.map fun _ => r.state.record.account.attaches) answer,
          r'.state.released⟩]) := by
  cases request with
  | attach s receiver =>
      simp only [Request.map, Router.perform, Router.attach, Registry.insert] at hperform
      by_cases hs : r.registry.contains s = true
      · simp only [hs, if_true, Prod.mk.injEq] at hperform
        obtain ⟨rfl, rfl⟩ := hperform
        have hsome : (r.state.record.account.listeners s).isSome = true := by
          rw [← h.follows.contains_eq, hs]
        refine ⟨rfl, h.follows.keep ⟨rfl, by rw [hsome]; rfl⟩ h.released ?_ rfl⟩
        simp [Account.after, Request.map, hsome]
      · rw [Bool.not_eq_true] at hs
        simp only [hs, Bool.false_eq_true, if_false, Prod.mk.injEq] at hperform
        obtain ⟨rfl, rfl⟩ := hperform
        have hattach := h.follows.attach hs receiver
        rw [← h.released] at hattach
        exact ⟨rfl, hattach⟩
  | detach s =>
      simp only [Request.map, Router.perform, Router.detach] at hperform
      rcases r.registry.remove_cases s with ⟨hs, hremove⟩ | ⟨d, hs, hd, hremove⟩ | ⟨hs, hremove⟩
      · simp only [hremove, Prod.mk.injEq] at hperform
        obtain ⟨rfl, rfl⟩ := hperform
        have hdetach := h.follows.detach_busy hs
        rw [← h.released] at hdetach
        exact ⟨rfl, hdetach⟩
      · simp only [hremove, Prod.mk.injEq] at hperform
        obtain ⟨rfl, rfl⟩ := hperform
        have hdetach := h.follows.detach_idle hs hd
        have hreleased : (app.watched.onRelease s r.state d).released = [d.number] := by
          simp [Application.watched, h.released]
        rw [← hreleased] at hdetach
        exact ⟨rfl, hdetach⟩
      · simp only [hremove, Prod.mk.injEq] at hperform
        obtain ⟨rfl, rfl⟩ := hperform
        have hdetach := h.follows.detach_refused hs
        rw [← h.released] at hdetach
        exact ⟨rfl, hdetach⟩
  | contains s =>
      simp only [Request.map, Router.perform, Prod.mk.injEq] at hperform
      obtain ⟨rfl, rfl⟩ := hperform
      exact ⟨rfl, h.follows.keep (by rw [h.follows.contains_eq]; rfl) h.released rfl rfl⟩
  | keys =>
      simp only [Request.map, Router.perform, Prod.mk.injEq] at hperform
      obtain ⟨rfl, rfl⟩ := hperform
      have hkeys := h.follows.keys
      rw [← h.released] at hkeys
      exact ⟨rfl, hkeys⟩

/-- When an answer has been entered, the registry is as its record says again, and whoever was handling a
section still is. -/
theorem answer (h : r.Watches) (request : Request δ) {r' : Router (Watched σ) (Numbered δ)}
    {answer : Answer}
    (hperform : r.perform app.watched
      (request.map (Numbered.mk r.state.record.account.attaches)) = (r', answer))
    {w : Watched σ} (hreleased : w.released = [])
    (hrecord : w.record = r'.state.record ++
      [⟨.answered ((request.map (Numbered.mk r.state.record.account.attaches)).map Numbered.number)
        answer, r'.state.released⟩]) :
    Watches { r' with state := w } ∧
      w.record.account.attaches = r.state.record.account.attaches + request.attaches ∧
      w.record.account.serving = r.state.record.account.serving := by
  obtain ⟨hsame, hfollows⟩ := h.perform app request hperform
  rw [Request.map_number, hsame] at hrecord
  refine ⟨⟨hrecord ▸ hfollows, hreleased⟩, ?_, ?_⟩ <;>
    rw [hrecord, Record.account_snoc] <;> cases request <;> rfl

/-- Requests are answered one after the other, whether a section is being handled or not. -/
theorem complyAll (h : r.Watches) (requests : List (Request δ)) :
    (r.complyAll app.watched
        (Request.number r.state.record.account.attaches requests)).Watches ∧
      (r.complyAll app.watched (Request.number r.state.record.account.attaches
        requests)).state.record.account.serving = r.state.record.account.serving := by
  induction requests generalizing r with
  | nil => exact ⟨h, rfl⟩
  | cons request requests ih =>
      obtain ⟨hnext, hattaches, hserving⟩ := h.answer app request rfl
        (w := (r.comply app.watched
          (request.map (Numbered.mk r.state.record.account.attaches))).state) rfl rfl
      obtain ⟨hlast, hserving'⟩ := ih hnext
      rw [Request.number, Router.complyAll, List.foldl_cons, ← hattaches]
      exact ⟨hlast, hserving'.trans hserving⟩

/-! ### Sections -/

/-- The application may attach a receiver first. -/
theorem welcome (h : r.Watches) (s : Subtable) :
    (r.welcome app.watched s).Watches ∧
      (r.welcome app.watched s).state.record.account.serving =
        r.state.record.account.serving := by
  unfold Router.welcome
  split
  · exact ⟨h, rfl⟩
  · have hasked : Watches { r with state := (app.watched.onNewcomer r.registry s r.state).1 } :=
      ⟨h.follows, h.released⟩
    exact hasked.complyAll app _

/-- A receiver that is taken out is given the section. -/
theorem gather (h : r.Watches) (hserving : r.state.record.account.serving = none) {s : Subtable}
    {d : Numbered δ} (hd : r.registry.find? s = some d) {w : Watched σ} (hreleased : w.released = [])
    (hrecord : w.record = r.state.record ++ [⟨.gathered s d.number, r.state.released⟩])
    (notices : List Notice) :
    Watches { r with
      registry := { r.registry.erase s with busy := some ⟨s, false⟩ }, state := w, notices } ∧
      w.record.account.serving = some (s, d.number) := by
  rw [h.released] at hrecord
  refine ⟨⟨?_, hreleased⟩, ?_⟩
  · rw [hrecord]
    exact h.follows.takeOut hserving hd
  · rw [hrecord, Record.account_snoc]
    rfl

/-- A receiver that handles a section is put back or released when its requests are answered. -/
theorem handle (h : r.Watches) (hserving : r.state.record.account.serving = none) {sect : Section}
    {d : Numbered δ} (hd : r.registry.find? sect.subtable = some d)
    {r' : Router (Watched σ) (Numbered δ)}
    (hhandle : Router.handle app.watched { r with registry :=
      { r.registry.erase sect.subtable with busy := some ⟨sect.subtable, false⟩ } } d sect = r') :
    Watches { r' with state := r'.state.enter (.returned sect.subtable .passed) } := by
  simp only [Router.handle] at hhandle
  generalize hturn : app.watched.onSection _ sect.subtable sect r.state d = turn at hhandle
  obtain ⟨hreleased, hrecord, hnumber, requests, hrequests⟩ : turn.state.released = [] ∧
      turn.state.record = r.state.record ++ [⟨.gathered sect.subtable d.number, r.state.released⟩] ∧
      turn.receiver.number = d.number ∧
      ∃ requests, turn.requests = Request.number turn.state.record.account.attaches requests := by
    subst hturn
    exact ⟨rfl, rfl, rfl, _, rfl⟩
  generalize hx : Router.complyAll app.watched _ turn.requests = x at hhandle
  -- while the receiver is out, its requests are answered
  obtain ⟨hout, hserving'⟩ :
      x.Watches ∧ x.state.record.account.serving = some (sect.subtable, turn.receiver.number) := by
    obtain ⟨hgather, hgathered⟩ := h.gather hserving hd hreleased hrecord (r.notices ++ turn.notices)
    obtain ⟨hcomply, hsame⟩ := hgather.complyAll app requests
    rw [← hx, hrequests, hnumber]
    exact ⟨hcomply, hsame.trans hgathered⟩
  have hput := hout.follows.putBack hserving'
  cases hback : x.registry.putBack sect.subtable turn.receiver with
  | mk registry gone =>
      rw [hback] at hput hhandle
      cases gone with
      | none =>
          subst hhandle
          refine ⟨?_, rfl⟩
          rw [Watched.enter, hout.released]
          exact hput
      | some e =>
          subst hhandle
          refine ⟨?_, rfl⟩
          have hgone : (app.watched.onRelease sect.subtable x.state e).released = [e.number] := by
            simp [Application.watched, hout.released]
          rw [Watched.enter, hgone]
          exact hput

/-- **A section is given to the receiver that listens**, which is then put back or released. -/
theorem route (h : r.Watches) (hserving : r.state.record.account.serving = none) (s : Section) :
    (r.watch app (.route s)).Watches := by
  obtain ⟨hwelcome, hfree⟩ := h.welcome app s.subtable
  rw [hserving] at hfree
  cases htake : (r.welcome app.watched s.subtable).registry.takeOut s.subtable with
  | none =>
      have hroute : r.route app.watched s =
          ((r.welcome app.watched s.subtable).note (.discarded s.subtable), .unclaimed) := by
        simp only [Router.route, htake]
      simp only [Router.watch, hroute]
      have hnobody := hwelcome.follows.listeners_eq_find? hfree s.subtable
      rw [Registry.takeOut_eq_none htake, Option.map_none] at hnobody
      refine ⟨hwelcome.follows.keep ?_ ?_ rfl ?_, rfl⟩
      · rw [Account.Fits, hfree]
        exact ⟨hnobody, rfl⟩
      · rw [Account.releases, hfree, Account.due]
        exact hwelcome.released
      · rw [hfree]
        rfl
  | some taken =>
      obtain ⟨registry, d⟩ := taken
      obtain ⟨hd, rfl⟩ := Registry.takeOut_eq_some htake
      simp only [Router.watch, Router.route, htake]
      exact hwelcome.handle app hfree hd rfl

/-! ### Runs -/

/-- **Every call keeps the registry as its record says**, and no section is being handled between calls. -/
theorem watch (h : r.Watches) (hserving : r.state.record.account.serving = none) (c : Call δ) :
    (r.watch app c).Watches ∧ (r.watch app c).state.record.account.serving = none := by
  cases c with
  | ask request =>
      obtain ⟨hnext, -, hsame⟩ := h.answer app request rfl
        (w := (r.watch app (.ask request)).state) rfl rfl
      exact ⟨hnext, hsame.trans hserving⟩
  | route s =>
      refine ⟨h.route app hserving s, ?_⟩
      simp only [Router.watch, Watched.enter, Record.account_snoc]
      rfl

/-- **So does every run.** -/
theorem watchAll (h : r.Watches) (hserving : r.state.record.account.serving = none)
    (cs : List (Call δ)) :
    (r.watchAll app cs).Watches ∧ (r.watchAll app cs).state.record.account.serving = none := by
  induction cs generalizing r with
  | nil => exact ⟨h, hserving⟩
  | cons c cs ih =>
      obtain ⟨hnext, hfree⟩ := h.watch app hserving c
      exact ih hnext hfree

end Watches

end Router

end ServiceInfo
