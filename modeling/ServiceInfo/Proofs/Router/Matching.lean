/-
**Routers that match.**

Two applications may keep different states and different receivers and still do the same.  Whenever they
are asked, they hand back matching receivers and make matching requests, and their states stay in a given
relation.  Routers that serve them then hold matching registries after every section.  What has been noted
does not count, since nothing reads it again.

This is used in two ways.  An application matches itself, so that what a router has noted makes no
difference to what it does; and an application that is watched matches the same application when nobody
watches.

Main definitions:

* `ServiceInfo.Application.Matches` — applications that do the same, up to a relation of their states and
  a change of their receivers;
* `ServiceInfo.Router.Matches` — routers with matching registries and related states.

Main results:

* `ServiceInfo.Router.Matches.perform` — matching routers answer a request alike;
* `ServiceInfo.Router.Matches.route` — **matching routers do the same with a section**.
-/

import ServiceInfo.Proofs.Registry
import ServiceInfo.Router

set_option relaxedAutoImplicit false
set_option autoImplicit false

namespace ServiceInfo

variable {σ τ δ ε : Type}

/-! ### Requests with other receivers -/

/-- The same request with another receiver. -/
def Request.map (f : δ → ε) : Request δ → Request ε
  | attach s d => attach s (f d)
  | detach s => detach s
  | contains s => contains s
  | keys => keys

@[simp] theorem Request.map_id : Request.map (id : δ → δ) = id := by
  funext request
  cases request <;> rfl

/-! ### Applications -/

/-- **The applications do the same** when they are asked about a section, a subtable that nobody listens
to, a receiver that goes or an answer.  The receivers of the one become those of the other by `f`, and the
states stay in the relation `rel`. -/
structure Application.Matches (rel : σ → τ → Prop) (f : δ → ε) (app : Application σ δ)
    (app' : Application τ ε) : Prop where
  onSection : ∀ {x y} registry s sect d, rel x y →
    rel (app.onSection registry s sect x d).state
        (app'.onSection (registry.map f) s sect y (f d)).state ∧
      f (app.onSection registry s sect x d).receiver =
        (app'.onSection (registry.map f) s sect y (f d)).receiver ∧
      (app.onSection registry s sect x d).requests.map (Request.map f) =
        (app'.onSection (registry.map f) s sect y (f d)).requests
  onNewcomer : ∀ {x y} registry s, rel x y →
    rel (app.onNewcomer registry s x).1 (app'.onNewcomer (registry.map f) s y).1 ∧
      (app.onNewcomer registry s x).2.map (Request.map f) =
        (app'.onNewcomer (registry.map f) s y).2
  onRelease : ∀ {x y} s d, rel x y → rel (app.onRelease s x d) (app'.onRelease s y (f d))
  onAnswer : ∀ {x y} request answer, rel x y →
    rel (app.onAnswer request answer x) (app'.onAnswer (request.map f) answer y)

theorem Application.Matches.refl (app : Application σ δ) : app.Matches Eq id app where
  onSection _ _ _ _ h := by
    subst h
    exact ⟨by simp, by simp, by simp⟩
  onNewcomer _ _ h := by
    subst h
    exact ⟨by simp, by simp⟩
  onRelease _ _ h := by rw [h, id]
  onAnswer _ _ h := by rw [h, Request.map_id, id]

namespace Router

/-- The registries match, the settings are the same, and the states of the applications are in the
relation `rel`. -/
structure Matches (rel : σ → τ → Prop) (f : δ → ε) (r : Router σ δ) (r' : Router τ ε) : Prop where
  registry_eq : r.registry.map f = r'.registry
  settings_eq : r.settings = r'.settings
  state : rel r.state r'.state

namespace Matches

theorem refl (r : Router σ δ) : r.Matches Eq id r := ⟨Registry.map_id _, rfl, rfl⟩

variable {rel : σ → τ → Prop} {f : δ → ε} {app : Application σ δ} {app' : Application τ ε}
  {r : Router σ δ} {r' : Router τ ε}

/-- What is noted does not count. -/
theorem note (h : r.Matches rel f r') (n n' : Notice) : (r.note n).Matches rel f (r'.note n') :=
  ⟨h.registry_eq, h.settings_eq, h.state⟩

theorem note_left (h : r.Matches rel f r') (n : Notice) : (r.note n).Matches rel f r' :=
  ⟨h.registry_eq, h.settings_eq, h.state⟩

/-! ### Requests -/

theorem attach (h : r.Matches rel f r') (s : Subtable) (d : δ) :
    (r.attach s d).2 = (r'.attach s (f d)).2 ∧
      (r.attach s d).1.Matches rel f (r'.attach s (f d)).1 := by
  unfold Router.attach
  rw [← h.registry_eq, Registry.insert_map]
  cases r.registry.insert s d with
  | ok registry => exact ⟨rfl, rfl, h.settings_eq, h.state⟩
  | error fault => exact ⟨rfl, h⟩

theorem detach (happ : app.Matches rel f app') (h : r.Matches rel f r') (s : Subtable) :
    (r.detach app s).2 = (r'.detach app' s).2 ∧
      (r.detach app s).1.Matches rel f (r'.detach app' s).1 := by
  unfold Router.detach
  rw [← h.registry_eq, Registry.remove_map]
  cases r.registry.remove s with
  | ok gone =>
      obtain ⟨registry, d⟩ := gone
      cases d with
      | none => exact ⟨rfl, rfl, h.settings_eq, h.state⟩
      | some d => exact ⟨rfl, rfl, h.settings_eq, happ.onRelease s d h.state⟩
  | error fault => exact ⟨rfl, h.note _ _⟩

/-- **Matching routers answer a request alike.** -/
theorem perform (happ : app.Matches rel f app') (h : r.Matches rel f r') (request : Request δ) :
    (r.perform app request).2 = (r'.perform app' (request.map f)).2 ∧
      (r.perform app request).1.Matches rel f (r'.perform app' (request.map f)).1 := by
  cases request with
  | attach s d =>
      obtain ⟨hanswer, hnext⟩ := h.attach s d
      exact ⟨congrArg Answer.done hanswer, hnext⟩
  | detach s =>
      obtain ⟨hanswer, hnext⟩ := h.detach happ s
      exact ⟨congrArg Answer.done hanswer, hnext⟩
  | contains s =>
      refine ⟨?_, h⟩
      simp only [Router.perform, Request.map, ← h.registry_eq, Registry.contains_map]
  | keys =>
      refine ⟨?_, h⟩
      simp only [Router.perform, Request.map, ← h.registry_eq, Registry.size_map,
        Registry.keys_map]

theorem comply (happ : app.Matches rel f app') (h : r.Matches rel f r') (request : Request δ) :
    (r.comply app request).Matches rel f (r'.comply app' (request.map f)) := by
  obtain ⟨hanswer, hnext⟩ := h.perform happ request
  simp only [Router.comply]
  rw [hanswer]
  exact ⟨hnext.registry_eq, hnext.settings_eq, happ.onAnswer request _ hnext.state⟩

theorem complyAll (happ : app.Matches rel f app') (h : r.Matches rel f r')
    (requests : List (Request δ)) :
    (r.complyAll app requests).Matches rel f
      (r'.complyAll app' (requests.map (Request.map f))) := by
  induction requests generalizing r r' with
  | nil => exact h
  | cons request requests ih => exact ih (h.comply happ request)

/-! ### Sections -/

theorem welcome (happ : app.Matches rel f app') (h : r.Matches rel f r') (s : Subtable) :
    (r.welcome app s).Matches rel f (r'.welcome app' s) := by
  obtain ⟨hstate, hrequests⟩ := happ.onNewcomer r.registry s h.state
  unfold Router.welcome
  rw [← h.registry_eq, Registry.contains_map]
  split
  · exact h
  · simp only [← hrequests]
    refine complyAll happ ?_ _
    exact ⟨rfl, h.settings_eq, hstate⟩

theorem handle (happ : app.Matches rel f app') (h : r.Matches rel f r') (d : δ) (s : Section) :
    (r.handle app d s).Matches rel f (r'.handle app' (f d) s) := by
  obtain ⟨hstate, hreceiver, hrequests⟩ := happ.onSection r.registry s.subtable s d h.state
  rw [h.registry_eq] at hstate hreceiver hrequests
  unfold Router.handle
  simp only [← hreceiver, ← hrequests]
  -- the requests are carried out first, and then the receiver is put back or let go
  generalize hx : Router.complyAll app _ _ = x
  generalize hy : Router.complyAll app' _ _ = y
  have hturn : x.Matches rel f y := by
    rw [← hx, ← hy]
    refine complyAll happ ?_ _
    exact ⟨h.registry_eq, h.settings_eq, hstate⟩
  rw [← hturn.registry_eq, Registry.putBack_map]
  cases x.registry.putBack s.subtable (app.onSection r.registry s.subtable s r.state d).receiver with
  | mk registry gone =>
      cases gone with
      | none => exact ⟨rfl, hturn.settings_eq, hturn.state⟩
      | some d => exact ⟨rfl, hturn.settings_eq, happ.onRelease _ d hturn.state⟩

/-- **Matching routers do the same with a section.** -/
theorem route (happ : app.Matches rel f app') (h : r.Matches rel f r') (s : Section) :
    (r.route app s).2 = (r'.route app' s).2 ∧
      (r.route app s).1.Matches rel f (r'.route app' s).1 := by
  have hwelcome := h.welcome happ s.subtable
  unfold Router.route
  simp only [← hwelcome.registry_eq, Registry.takeOut_map]
  cases (r.welcome app s.subtable).registry.takeOut s.subtable with
  | some taken =>
      obtain ⟨registry, d⟩ := taken
      refine ⟨rfl, handle happ ?_ d s⟩
      exact ⟨rfl, hwelcome.settings_eq, hwelcome.state⟩
  | none => exact ⟨rfl, hwelcome.note _ _⟩

end Matches

end Router

end ServiceInfo
