/-
**Applications given as data.**

A script is an application that is written down instead of programmed.  Its receivers either
assemble the tables of a kind, with or without actions to take on every table, or take actions on
every section.  Its rules say which actions to take when a subtable comes up that nobody listens to.
The state of a scripted application is the list of all that has happened to it.

Main definitions:

* `ServiceInfo.Action`, `ServiceInfo.Plan` — what a script can do, and the receivers it can attach;
* `ServiceInfo.Script` — a script, as rules for newcomers;
* `ServiceInfo.Event` — what can happen to a scripted application;
* `ServiceInfo.Script.application` — the application of a script.
-/

import ServiceInfo.Kind
import ServiceInfo.Receiver
import ServiceInfo.Router

set_option relaxedAutoImplicit false
set_option autoImplicit false

namespace ServiceInfo

/-! ### Scripts -/

mutual

/-- An action on the registry.  Without a subtable it concerns the one at hand. -/
inductive Action where
  | attach (subtable : Option Subtable) (plan : Plan)
  | detach (subtable : Option Subtable)
  | contains (subtable : Option Subtable)
  | keys

/-- A receiver to attach. -/
inductive Plan where
  | deliver (kind : Kind)
  | follow (kind : Kind) (actions : List Action)
  | react (actions : List Action)

end

/-- What to do when a subtable comes up that nobody listens to. -/
structure Rule where
  /-- The table id for which the rule holds, or any. -/
  tableId : Option UInt8
  /-- The extension for which the rule holds, or any. -/
  extension : Option UInt16
  actions : List Action

/-- Whether a rule holds for a subtable. -/
def Rule.applies (rule : Rule) (s : Subtable) : Bool :=
  (rule.tableId.all (· == s.tableId)) && (rule.extension.all (· == s.extension))

/-- A script: of its rules the first one that applies is followed. -/
abbrev Script := List Rule

/-! ### Receivers -/

/-- A receiver of a script. -/
inductive Player where
  | deliver (kind : Kind) (receiver : Receiver)
  | follow (kind : Kind) (assembly : Assembly) (actions : List Action)
  | react (actions : List Action)

/-- The receiver of a plan, before its first section. -/
def Plan.player : Plan → Player
  | deliver kind => .deliver kind {}
  | follow kind actions => .follow kind .idle actions
  | react actions => .react actions

/-- What an action asks of the registry, given the subtable at hand. -/
def Action.request (s : Subtable) : Action → Request Player
  | attach target plan => .attach (target.getD s) plan.player
  | detach target => .detach (target.getD s)
  | contains target => .contains (target.getD s)
  | keys => .keys

/-! ### What happens -/

/-- What can happen to a scripted application. -/
inductive Event where
  /-- A subtable came up that nobody listens to. -/
  | newcomer (subtable : Subtable)
  /-- A table was delivered. -/
  | delivered (subtable : Subtable) (table : AnyTable)
  /-- A section reached a receiver that only takes actions. -/
  | handled (subtable : Subtable) (number : UInt8)
  /-- Such a receiver was told of a break in the stream. -/
  | interrupted (subtable : Subtable)
  /-- Such a receiver was detached. -/
  | released (subtable : Subtable)
  /-- An action was answered. -/
  | answered (request : Request Player) (answer : Answer)

/-- The events that go with the delivery of a table. -/
def Event.ofTable (s : Subtable) (kind : Kind) : Option kind.Table → List Event
  | some table => [.delivered s ⟨kind, table⟩]
  | none => []

namespace Player

/-- A receiver of a script is given a section. -/
def handle (s : Subtable) (sect : Section) (events : List Event) : Player →
    Turn (List Event) Player
  | deliver kind receiver =>
      let result := receiver.receive kind.format sect
      { state := events ++ Event.ofTable s kind result.value.2
        receiver := .deliver kind result.value.1
        notices := result.notices }
  | follow kind assembly actions =>
      let result := assembly.receive kind.format sect
      { state := events ++ Event.ofTable s kind result.value.2
        receiver := .follow kind result.value.1 actions
        notices := result.notices
        requests := if result.value.2.isSome then actions.map (Action.request s) else [] }
  | react actions =>
      { state := events ++ [.handled s sect.header.number]
        receiver := .react actions
        requests := actions.map (Action.request s) }

/-- A receiver of a script is told of a break in the stream. -/
def interrupt (s : Subtable) (events : List Event) : Player → List Event × Player
  | deliver kind receiver => (events, .deliver kind receiver.interrupt)
  | follow kind assembly actions => (events, .follow kind assembly.interrupt actions)
  | react actions => (events ++ [.interrupted s], .react actions)

/-- A receiver of a script has been detached. -/
def release (s : Subtable) (events : List Event) : Player → List Event
  | deliver .. | follow .. => events
  | react _ => events ++ [.released s]

end Player

/-- **The application of a script.** -/
def Script.application (script : Script) : Application (List Event) Player where
  onSection := fun _ s sect events player => player.handle s sect events
  onNewcomer := fun _ s events =>
    let actions := ((script.find? (·.applies s)).map Rule.actions).getD []
    (events ++ [.newcomer s], actions.map (Action.request s))
  onBreak := fun s events player => player.interrupt s events
  onRelease := fun s events player => player.release s events
  onAnswer := fun request answer events => events ++ [.answered request answer]

end ServiceInfo
