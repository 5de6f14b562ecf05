/-
**Routing sections to their receivers.**

The sections of a stream belong to many subtables.  A router passes each of them to the receiver
that is attached to its subtable.  What the receivers do is up to the application: it is asked about
every section that reaches a receiver, about every subtable that nobody listens to yet, about every
break in the stream, and it is told when a receiver goes.

The application has a state of its own, of type `σ`, and its receivers are of a type `δ`.  When it
is asked it sees the registry, and it answers with requests to the registry, which are carried out
in order; each of them is answered in turn.  A request may concern any subtable, also the one whose
section is just being handled.  What is attached or detached this way counts from the next section
on.

Main definitions:

* `ServiceInfo.Request`, `ServiceInfo.Answer` — what an application may ask of the registry;
* `ServiceInfo.Application` — an application;
* `ServiceInfo.Router` — routers, with `Router.attach` and `Router.detach`;
* `ServiceInfo.Router.route`, `ServiceInfo.Router.routeBytes`, `ServiceInfo.Router.routeBuffer` —
  one section, one section as bytes, and a buffer of sections;
* `ServiceInfo.Router.interrupt` — a break in the stream.
-/

import ServiceInfo.Registry
import ServiceInfo.Section.Walk
import ServiceInfo.Settings

set_option relaxedAutoImplicit false
set_option autoImplicit false

namespace ServiceInfo

/-! ### Applications -/

/-- What an application may ask of the registry. -/
inductive Request (δ : Type) where
  | attach (subtable : Subtable) (receiver : δ)
  | detach (subtable : Subtable)
  | contains (subtable : Subtable)
  | keys
  deriving DecidableEq, Repr

/-- What the registry answers. -/
inductive Answer where
  | done (refusal : Option Fault)
  | present (there : Bool)
  | listing (size : Nat) (keys : List Subtable)
  deriving DecidableEq, Repr

/-- What an application does with a section. -/
structure Turn (σ δ : Type) where
  state : σ
  receiver : δ
  notices : List Notice := []
  requests : List (Request δ) := []

/-- What an application does when it is asked. -/
structure Application (σ δ : Type) where
  /-- A section has reached the receiver of its subtable. -/
  onSection : Registry δ → Subtable → Section → σ → δ → Turn σ δ
  /-- Nobody listens to a subtable of which a section has come in. -/
  onNewcomer : Registry δ → Subtable → σ → σ × List (Request δ)
  /-- The stream was interrupted. -/
  onBreak : Subtable → σ → δ → σ × δ
  /-- A receiver has been detached and is not used any more. -/
  onRelease : Subtable → σ → δ → σ
  /-- A request has been answered. -/
  onAnswer : Request δ → Answer → σ → σ

/-! ### Routers -/

/-- The state of routing. -/
structure Router (σ δ : Type) where
  registry : Registry δ := .empty
  state : σ
  settings : Settings := {}
  notices : List Notice := []

/-- What became of a section. -/
inductive Outcome where
  | passed
  | unclaimed
  deriving DecidableEq, Repr

namespace Router

variable {σ δ : Type} (app : Application σ δ)

/-- Make a notice. -/
def note (r : Router σ δ) (n : Notice) : Router σ δ := { r with notices := r.notices ++ [n] }

/-- Attach a receiver. -/
def attach (r : Router σ δ) (s : Subtable) (d : δ) : Router σ δ × Option Fault :=
  match r.registry.insert s d with
  | .ok registry => ({ r with registry }.note (.attached s), none)
  | .error fault => (r, some fault)

/-- Detach a receiver, which the application is told of.  A busy receiver goes when it is done. -/
def detach (r : Router σ δ) (s : Subtable) : Router σ δ × Option Fault :=
  match r.registry.remove s with
  | .ok (registry, none) => ({ r with registry }.note (.detachedBusy s), none)
  | .ok (registry, some d) =>
      ({ r with registry, state := app.onRelease s r.state d }.note (.detached s), none)
  | .error fault => (r.note (.detachRefused s), some fault)

/-- Carry out a request. -/
def perform (r : Router σ δ) : Request δ → Router σ δ × Answer
  | .attach s d => let (r, refusal) := r.attach s d; (r, .done refusal)
  | .detach s => let (r, refusal) := r.detach app s; (r, .done refusal)
  | .contains s => (r, .present (r.registry.contains s))
  | .keys => (r, .listing r.registry.size r.registry.keys)

/-- Carry out a request of the application, and answer it. -/
def comply (r : Router σ δ) (request : Request δ) : Router σ δ :=
  let (r, answer) := r.perform app request
  { r with state := app.onAnswer request answer r.state }

/-- Carry out requests of the application in order. -/
def complyAll (r : Router σ δ) (requests : List (Request δ)) : Router σ δ :=
  requests.foldl (comply app) r

/-! ### Sections -/

/-- Ask the application about a subtable that nobody listens to. -/
def welcome (r : Router σ δ) (s : Subtable) : Router σ δ :=
  if r.registry.contains s then r
  else
    let (state, requests) := app.onNewcomer r.registry s r.state
    { r with state }.complyAll app requests

/-- Let the receiver `d`, which has been taken out, handle a section, and put it back. -/
def handle (r : Router σ δ) (d : δ) (s : Section) : Router σ δ :=
  let turn := app.onSection r.registry s.subtable s r.state d
  let r := { r with state := turn.state, notices := r.notices ++ turn.notices }
  -- The receiver is still out while its requests are carried out, so that it can be detached.
  let r := r.complyAll app turn.requests
  match r.registry.putBack s.subtable turn.receiver with
  | (registry, none) => { r with registry }
  | (registry, some d) => { r with registry, state := app.onRelease s.subtable r.state d }

/-- **Pass a section to the receiver of its subtable.**  If there is none, the application may
attach one first. -/
def route (r : Router σ δ) (s : Section) : Router σ δ × Outcome :=
  let r := r.welcome app s.subtable
  match r.registry.takeOut s.subtable with
  | some (registry, d) => ({ r with registry }.handle app d s, .passed)
  | none => (r.note (.discarded s.subtable), .unclaimed)

/-- Pass on the section at the front of some bytes.  What is no section, or is damaged, is refused.  The
result is the state afterwards, and what became of the section. -/
def routeBytes (r : Router σ δ) (bs : Bytes) : Router σ δ × Except Fault Outcome :=
  match Section.ofBytes bs with
  | .error fault => (r, .error fault)
  | .ok s =>
      match if r.settings.verifyChecksum then s.verify else .ok () with
      | .error fault => (r, .error fault)
      | .ok () =>
          let (r, outcome) := r.route app s
          (r, .ok outcome)

/-! ### Buffers -/

/-- What became of the sections of a buffer. -/
structure Tally where
  passed : Nat := 0
  unclaimed : Nat := 0
  /-- Whether the buffer had to be given up, as 0 or 1. -/
  malformed : Nat := 0
  damaged : Nat := 0
  deriving DecidableEq, Repr

/-- Pass on what a walk has yielded, and count what became of it. -/
def routeItem (state : Router σ δ × Tally) (item : Except Fault Section) : Router σ δ × Tally :=
  let (r, tally) := state
  match item with
  | .error fault =>
      (r.note (.bufferDropped fault), { tally with malformed := tally.malformed + 1 })
  | .ok s =>
      match if r.settings.verifyChecksum then s.verify else .ok () with
      | .error fault =>
          (r.note (.sectionDropped s.subtable fault),
            { tally with damaged := tally.damaged + 1 })
      | .ok () =>
          match r.route app s with
          | (r, .passed) => (r, { tally with passed := tally.passed + 1 })
          | (r, .unclaimed) => (r, { tally with unclaimed := tally.unclaimed + 1 })

/-- Pass on every section of a buffer.  Damaged sections are dropped one by one. -/
def routeBuffer (r : Router σ δ) (bs : Bytes) : Router σ δ × Tally :=
  (Walk.start bs).toList.foldl (routeItem app) (r, {})

/-! ### Breaks in the stream -/

/-- Tell the application about a break in the stream, receiver by receiver. -/
def interruptEntries (state : σ) : List (Subtable × δ) → σ × List (Subtable × δ)
  | [] => (state, [])
  | (s, d) :: entries =>
      let (state, d) := app.onBreak s state d
      let (state, entries) := interruptEntries state entries
      (state, (s, d) :: entries)

/-- Note a break in the stream. -/
def interrupt (r : Router σ δ) : Router σ δ :=
  let (state, entries) := interruptEntries app r.state r.registry.entries
  { r.note (.interrupted r.registry.size) with
    state, registry := { r.registry with entries } }

end Router

end ServiceInfo
