/-
**The registry is a plain partial map.**

What the registry answers, whom it gives sections to and whom it lets go is at every moment what a plain
partial map would do, also while a receiver is out, and a receiver that has been detached is released
exactly once.  The record of a run says so, and nothing is missing in it.  Whatever the calls from outside
ask for, and whatever the application asks for in the course of them, for a subtable that nobody listens to
or on behalf of a receiver that handles a section, has been answered, in the order in which it was asked.

Main definitions:

* `ServiceInfo.Router.requestsOf`, `ServiceInfo.Router.requestsOfAll` — what a call and a run ask for;
* `ServiceInfo.Record.requests` — what has been answered by a record;
* `ServiceInfo.Record.Answers` — from one record to another, these requests have been answered.

Main results:

* `ServiceInfo.Router.Matches.answers_watch` — a call answers what is asked for because of it;
* `ServiceInfo.Router.watchAll_isPlain` — **every record of a registry is that of a plain partial map**.
-/

import Mathlib.Algebra.Ring.Nat
import ServiceInfo.Proofs.Router.Watched
import ServiceInfo.Script

set_option relaxedAutoImplicit false
set_option autoImplicit false

namespace ServiceInfo

variable {σ δ ε : Type}

/-! ### Requests and their numbers -/

namespace Request

@[simp] theorem attaches_map (f : δ → ε) (request : Request δ) :
    (request.map f).attaches = request.attaches := by
  cases request <;> rfl

/-- Numbering changes nothing about how many receivers are to be attached. -/
theorem map_attaches_number (n : Nat) (requests : List (Request δ)) :
    (number n requests).map attaches = requests.map attaches := by
  induction requests generalizing n with
  | nil => rfl
  | cons request requests ih => simp [number, ih]

/-- Further requests are numbered on. -/
theorem number_append (n : Nat) (xs ys : List (Request δ)) :
    number n (xs ++ ys) = number n xs ++ number (n + (xs.map attaches).sum) ys := by
  induction xs generalizing n with
  | nil => rfl
  | cons x xs ih => simp [number, ih, Nat.add_assoc]

end Request

/-! ### Requests in a record -/

/-- The request that has been answered. -/
def Happening.request? : Happening → Option (Request Nat)
  | answered request _ => some request
  | gathered .. | returned .. => none

namespace Record

/-- The requests that have been answered. -/
def requests (record : Record) : List (Request Nat) := record.filterMap (·.happening.request?)

theorem requests_snoc (record : Record) (e : Entry) :
    requests (record ++ [e]) = record.requests ++ e.happening.request?.toList := by
  cases h : e.happening.request? <;> simp [requests, h]

/-- An entry of another kind answers no request. -/
theorem requests_snoc_of_none {e : Entry} (h : e.happening.request? = none) (record : Record) :
    requests (record ++ [e]) = record.requests := by
  rw [requests_snoc, h, Option.toList_none, List.append_nil]

/-- A record counts the requests to attach a receiver. -/
theorem attaches_account (record : Record) :
    record.account.attaches = (record.requests.map Request.attaches).sum := by
  induction record using List.reverseRecOn with
  | nil => rfl
  | append_singleton record e ih =>
      rw [account_snoc, requests_snoc, List.map_append, List.sum_append, ← ih]
      obtain ⟨happening, released⟩ := e
      cases happening with
      | gathered | returned => rfl
      | answered request answer => cases request <;> rfl

/-- **From one record to the other, these requests have been answered**, in this order and no others.  Their
receivers are numbered on. -/
def Answers (before after : Record) (requests : List (Request δ)) : Prop :=
  after.requests = before.requests ++
    (Request.number before.account.attaches requests).map (Request.map Numbered.number)

namespace Answers

variable {before middle after : Record} {xs ys : List (Request δ)}

theorem nothing (h : after.requests = before.requests) :
    Answers before after ([] : List (Request δ)) := by
  rw [Answers, h]
  exact (List.append_nil _).symm

theorem attaches_eq (h : Answers before after xs) :
    after.account.attaches = before.account.attaches + (xs.map Request.attaches).sum := by
  rw [attaches_account, h, List.map_append, List.sum_append, ← attaches_account, List.map_map,
    ← Request.map_attaches_number before.account.attaches]
  simp [Function.comp_def]

/-- What is answered first and what is answered then has been answered. -/
theorem trans (h : Answers before middle xs) (h' : Answers middle after ys) :
    Answers before after (xs ++ ys) := by
  rw [Answers, h', h, h.attaches_eq, Request.number_append, List.map_append, List.append_assoc]

end Answers

end Record

/-! ### What is asked for -/

namespace Router

variable (app : Application σ δ)

/-- What the application asks for when a section of a subtable comes in that nobody listens to. -/
def newcomerRequests (r : Router σ δ) (s : Subtable) : List (Request δ) :=
  if r.registry.contains s then [] else (app.onNewcomer r.registry s r.state).2

/-- What the application asks for on behalf of the receiver that is given a section. -/
def turnRequests (r : Router σ δ) (s : Section) : List (Request δ) :=
  match r.registry.takeOut s.subtable with
  | some (registry, d) => (app.onSection registry s.subtable s r.state d).requests
  | none => []

/-- What is asked for because of a call. -/
def requestsOf (r : Router σ δ) : Call δ → List (Request δ)
  | .ask request => [request]
  | .route s => r.newcomerRequests app s.subtable ++ (r.welcome app s.subtable).turnRequests app s

/-- What is asked for because of many calls. -/
def requestsOfAll (r : Router σ δ) : List (Call δ) → List (Request δ)
  | [] => []
  | c :: cs => r.requestsOf app c ++ requestsOfAll (r.call app c) cs

/-! ### What is answered -/

/-- A request that is carried out is not entered yet. -/
theorem record_perform (r : Router (Watched σ) (Numbered δ)) (request : Request (Numbered δ)) :
    (r.perform app.watched request).1.state.record = r.state.record := by
  cases request with
  | attach s d =>
      simp only [perform, attach]
      split <;> rfl
  | detach s =>
      simp only [perform, detach]
      split <;> rfl
  | contains | keys => rfl

/-- Every request that is complied with is answered. -/
theorem requests_complyAll (r : Router (Watched σ) (Numbered δ))
    (requests : List (Request (Numbered δ))) :
    (r.complyAll app.watched requests).state.record.requests =
      r.state.record.requests ++ requests.map (Request.map Numbered.number) := by
  induction requests generalizing r with
  | nil => exact (List.append_nil _).symm
  | cons request requests ih =>
      have hrecord := r.record_perform app request
      rw [complyAll, List.foldl_cons, ← complyAll, ih, comply]
      simp only [Application.watched, Watched.enter] at hrecord ⊢
      rw [Record.requests_snoc, hrecord]
      simp [Happening.request?]

/-- So is every request that is made on behalf of a receiver that handles a section. -/
theorem requests_handle (r : Router (Watched σ) (Numbered δ)) (d : Numbered δ) (s : Section) :
    (r.handle app.watched d s).state.record.requests = r.state.record.requests ++
      (app.watched.onSection r.registry s.subtable s r.state d).requests.map
        (Request.map Numbered.number) := by
  have hentered : (app.watched.onSection r.registry s.subtable s r.state d).state.record.requests =
      r.state.record.requests := Record.requests_snoc_of_none rfl _
  rw [← hentered, ← requests_complyAll app { r with
    state := (app.watched.onSection r.registry s.subtable s r.state d).state
    notices := r.notices ++ (app.watched.onSection r.registry s.subtable s r.state d).notices }]
  -- putting the receiver back or letting it go makes no entry
  unfold handle
  simp only
  split <;> rfl

namespace Matches

variable {app} {r : Router (Watched σ) (Numbered δ)} {r' : Router σ δ}

/-- What the application asks for because of a newcomer is answered. -/
theorem answers_welcome (h : r.Matches (fun w state => w.state = state) Numbered.receiver r')
    (s : Subtable) :
    r.state.record.Answers (r.welcome app.watched s).state.record (r'.newcomerRequests app s) := by
  unfold Router.welcome newcomerRequests
  rw [← h.registry_eq, Registry.contains_map]
  split
  · exact .nothing rfl
  · refine (requests_complyAll app _ _).trans ?_
    simp only [Application.watched]
    rw [h.state]

/-- What it asks for on behalf of a receiver that handles a section is answered. -/
theorem answers_handle (h : r.Matches (fun w state => w.state = state) Numbered.receiver r')
    (d : Numbered δ) (s : Section) :
    r.state.record.Answers (r.handle app.watched d s).state.record
      (app.onSection r'.registry s.subtable s r'.state d.receiver).requests := by
  rw [Record.Answers, requests_handle]
  simp only [Application.watched, Watched.enter, Record.account_snoc]
  rw [h.registry_eq, h.state]
  rfl

/-- **A call answers what is asked for because of it.** -/
theorem answers_watch (h : r.Matches (fun w state => w.state = state) Numbered.receiver r')
    (c : Call δ) : r.state.record.Answers (r.watch app c).state.record (r'.requestsOf app c) := by
  cases c with
  | ask request =>
      simp only [Router.watch, Watched.enter, Record.Answers, Record.requests_snoc, requestsOf]
      rw [record_perform]
      rfl
  | route s =>
      have hwelcome := h.welcome app.watched_matches s.subtable
      refine (h.answers_welcome s.subtable).trans ?_
      -- the entry that the section has been dealt with answers nothing
      suffices hroute : (r.welcome app.watched s.subtable).state.record.Answers
          (r.route app.watched s).1.state.record ((r'.welcome app s.subtable).turnRequests app s) by
        refine Eq.trans ?_ hroute
        simp only [Router.watch, Watched.enter]
        exact Record.requests_snoc_of_none rfl _
      simp only [Router.route, turnRequests, ← hwelcome.registry_eq, Registry.takeOut_map]
      cases (r.welcome app.watched s.subtable).registry.takeOut s.subtable with
      | none => exact .nothing rfl
      | some taken =>
          obtain ⟨registry, d⟩ := taken
          have hout : Router.Matches (fun w state => w.state = state) Numbered.receiver
              { r.welcome app.watched s.subtable with registry }
              { r'.welcome app s.subtable with registry := registry.map Numbered.receiver } :=
            ⟨rfl, hwelcome.settings_eq, hwelcome.state⟩
          exact hout.answers_handle d s

/-- So does a run. -/
theorem answers_watchAll (h : r.Matches (fun w state => w.state = state) Numbered.receiver r')
    (cs : List (Call δ)) :
    r.state.record.Answers (r.watchAll app cs).state.record (r'.requestsOfAll app cs) := by
  induction cs generalizing r r' with
  | nil => exact .nothing rfl
  | cons c cs ih => exact (h.answers_watch c).trans (ih (h.watch app c))

end Matches

/-! ### Runs -/

/-- **A registry is a plain partial map, also while a receiver is out.**  Whatever is attached, detached
and passed on, and whatever the application asks for in the course of it:

* watched or not, the router does the same;
* every answer is that of a plain partial map, which requests to attach and to detach change if they are
  not refused, and which nothing else changes; every section is given to the receiver that listens by that
  map; a receiver that is detached is released on the spot, or when it is done with its section;
* every request is answered, in order and once, whether it comes from outside, from the application when
  nobody listens to a subtable, or from it on behalf of a receiver that handles a section;
* between calls the registry holds the receivers that listen by that map, and no others;
* a receiver is released exactly once if it has been detached, and otherwise not at all; who listens has at
  no time been detached or released, and who has been detached is given no section any more. -/
theorem watchAll_isPlain (app : Application σ δ) (state : σ) (settings : Settings)
    (cs : List (Call δ)) :
    let start : Router σ δ := { state, settings }
    let plain : Router σ δ := start.calls app cs
    let r : Router (Watched σ) (Numbered δ) :=
      ({ state := { state }, settings } : Router (Watched σ) (Numbered δ)).watchAll app cs
    let a : Account := r.state.record.account
    (r.registry.map Numbered.receiver = plain.registry ∧ r.state.state = plain.state) ∧
    (r.state.record.IsPlain ∧ r.state.released = []) ∧
    r.state.record.requests =
      (Request.number 0 (start.requestsOfAll app cs)).map (Request.map Numbered.number) ∧
    (r.registry.busy = none ∧
      (∀ s, (r.registry.find? s).map Numbered.number = a.listeners s) ∧
      (∀ s, r.registry.contains s = (a.listeners s).isSome) ∧
      (∀ s, s ∈ r.registry.keys ↔ (a.listeners s).isSome = true) ∧
      r.registry.keys.Pairwise (fun s t => s.code < t.code) ∧
      r.registry.size = r.registry.keys.length) ∧
    (∀ n, a.released.count n = if n ∈ a.removed then 1 else 0) ∧
    ∀ before after : Record, r.state.record = before ++ after →
      (∀ s n, before.account.listeners s = some n →
        n ∉ before.account.removed ∧ n ∉ before.account.released) ∧
      ∀ s n released rest, after = ⟨.gathered s n, released⟩ :: rest →
        n ∉ before.account.removed := by
  intro start plain r a
  obtain ⟨hwatches, hserving⟩ : r.Watches ∧ a.serving = none :=
    Watches.watchAll app ⟨Registry.follows_nil, rfl⟩ rfl cs
  have hfollows := hwatches.follows
  have hconsistent := hfollows.plain.consistent
  have hstart : Matches (fun w state => w.state = state) Numbered.receiver
      ({ state := { state }, settings } : Router (Watched σ) (Numbered δ)) start := ⟨rfl, rfl, rfl⟩
  have hmatches := hstart.watchAll app cs
  refine ⟨⟨hmatches.registry_eq, hmatches.state⟩, ⟨hfollows.plain, hwatches.released⟩,
    hstart.answers_watchAll cs,
    ⟨hfollows.busy_eq_none hserving, fun s => (hfollows.listeners_eq_find? hserving s).symm,
      hfollows.contains_eq, ?_, Registry.pairwise_keys hfollows.sound,
      (Registry.length_keys _).symm⟩,
    hconsistent.count_released hserving, ?_⟩
  · intro s
    rw [Registry.mem_keys_iff, hfollows.contains_eq]
  · intro before after heq
    have hbefore : before.IsPlain := Record.IsPlain.of_append (heq ▸ hfollows.plain)
    have hlistener : ∀ s n, before.account.listeners s = some n → n ∉ before.account.removed :=
      fun s n => hbefore.consistent.not_mem_removed
    refine ⟨fun s n hs => ⟨hlistener s n hs, fun hn => ?_⟩, ?_⟩
    · exact hlistener s n hs (hbefore.consistent.mem_removed hn)
    · rintro s n released rest rfl
      obtain ⟨⟨-, hs⟩, -⟩ := hfollows.plain before _ rest heq
      exact hlistener s n hs

/-- Subtable 8 gets a receiver that detaches itself. -/
def briefGuests : Script := [⟨none, some 8, [.attach none (.react [.contains none, .detach none])]⟩]

/-- A receiver for subtable 7 is refused a second place, and replaces itself twice.  Then a section for
subtable 8 comes in. -/
def restlessCalls : List (Call Player) :=
  [.ask (.attach ⟨0, 7⟩ (.react [.attach none (.react []), .detach none, .attach none (.react []),
      .detach none, .attach none (.react []), .keys])),
    .route ⟨.long 0 7 ⟨1, true⟩, []⟩, .route ⟨.long 0 8 ⟨1, true⟩, []⟩]

/-- The first replacement is released before the receiver that it was to replace, and the second one stays.
The receiver of the newcomer is released when it is done. -/
theorem watchAll_isPlain_restlessCalls :
    let r := ({ state := { state := [] } } : Router (Watched (List Event)) (Numbered Player)).watchAll
      briefGuests.application restlessCalls
    r.state.record =
      [⟨.answered (.attach ⟨0, 7⟩ 0) (.done none), []⟩,
        ⟨.gathered ⟨0, 7⟩ 0, []⟩,
        ⟨.answered (.attach ⟨0, 7⟩ 1) (.done (some (.taken ⟨0, 7⟩))), []⟩,
        ⟨.answered (.detach ⟨0, 7⟩) (.done none), []⟩,
        ⟨.answered (.attach ⟨0, 7⟩ 2) (.done none), []⟩,
        ⟨.answered (.detach ⟨0, 7⟩) (.done none), [2]⟩,
        ⟨.answered (.attach ⟨0, 7⟩ 3) (.done none), []⟩,
        ⟨.answered .keys (.listing 1 [⟨0, 7⟩]), []⟩,
        ⟨.returned ⟨0, 7⟩ .passed, [0]⟩,
        ⟨.answered (.attach ⟨0, 8⟩ 4) (.done none), []⟩,
        ⟨.gathered ⟨0, 8⟩ 4, []⟩,
        ⟨.answered (.contains ⟨0, 8⟩) (.present true), []⟩,
        ⟨.answered (.detach ⟨0, 8⟩) (.done none), []⟩,
        ⟨.returned ⟨0, 8⟩ .passed, [4]⟩] ∧
    r.state.record.IsPlain ∧ r.registry.keys = [⟨0, 7⟩] ∧
    ∀ n, r.state.record.account.released.count n = if n ∈ r.state.record.account.removed then 1 else 0 := by
  intro r
  obtain ⟨-, ⟨hplain, -⟩, -, -, hreleased, -⟩ :=
    watchAll_isPlain briefGuests.application [] {} restlessCalls
  exact ⟨rfl, hplain, rfl, hreleased⟩

end Router

end ServiceInfo
