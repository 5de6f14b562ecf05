/-
**Subtables keep out of each other's way.**

Many subtables share one router.  On every section the receiver of its subtable is taken out of the
registry and put back, and receivers are attached when their first section comes in, so a receiver that
comes late has not seen the breaks before.  None of this can be told from the tables that are delivered.
What a subtable delivers is what a single assembly delivers that is given the sections of this subtable
and all the breaks, from the very beginning, and nothing else.

Hence it does not matter how the sections of different subtables are mixed.

Main definitions:

* `ServiceInfo.Router.Input`, `ServiceInfo.Router.after` — sections and breaks, and a run of them;
* `ServiceInfo.Router.Input.seenBy` — what one subtable sees of a run;
* `ServiceInfo.Event.deliveries` — the tables that a subtable has delivered;
* `ServiceInfo.Script.IsPlain` — scripts that attach a receiver of the right kind, and do no more;
* `ServiceInfo.Router.IsPlain` — the routers that such scripts lead to.

Main results:

* `ServiceInfo.Router.IsPlain.route`, `ServiceInfo.Router.IsPlain.route_elsewhere` — one section changes
  one receiver;
* `ServiceInfo.Router.IsPlain.deliveries_after` — **a receiver follows the single assembly**;
* `ServiceInfo.Router.deliveries_separate` — **subtables do not influence each other**.
-/

import ServiceInfo.Proofs.Assembly.Breaks
import ServiceInfo.Proofs.Registry
import ServiceInfo.Script

set_option relaxedAutoImplicit false
set_option autoImplicit false

namespace ServiceInfo

/-! ### Deliveries -/

namespace Event

/-- The table that the event delivers to the subtable `s`. -/
def deliveredTo (s : Subtable) : Event → Option AnyTable
  | delivered t table => if t = s then some table else none
  | _ => none

/-- The tables that the subtable `s` has delivered, first delivered first. -/
def deliveries (s : Subtable) (events : List Event) : List AnyTable :=
  events.filterMap (deliveredTo s)

@[simp] theorem deliveries_nil (s : Subtable) : deliveries s [] = [] := rfl

@[simp] theorem deliveries_append (s : Subtable) (xs ys : List Event) :
    deliveries s (xs ++ ys) = deliveries s xs ++ deliveries s ys :=
  List.filterMap_append

@[simp] theorem deliveries_newcomer (s t : Subtable) : deliveries s [.newcomer t] = [] := rfl

@[simp] theorem deliveries_answered (s : Subtable) (request : Request Player) (answer : Answer) :
    deliveries s [.answered request answer] = [] := rfl

/-- A table goes to its own subtable and to no other. -/
theorem deliveries_ofTable (s t : Subtable) (k : Kind) (table : Option k.Table) :
    deliveries s (ofTable t k table) =
      if s = t then (table.map (AnyTable.mk k)).toList else [] := by
  cases table with
  | none => simp [ofTable]
  | some table => by_cases h : s = t <;> simp [ofTable, deliveries, deliveredTo, h, eq_comm]

end Event

/-! ### Receivers and assemblies -/

/-- A receiver takes in a section as its assembly does. -/
theorem Receiver.receive_value {α : Type} (format : TableFormat α) (r : Receiver) (s : Section) :
    (r.receive format s).value =
      ({ r with assembly := (r.assembly.step format (.receive s)).1 },
        (r.assembly.step format (.receive s)).2) := rfl

/-! ### Plain scripts -/

/-- What the script requests when it is asked about a subtable. -/
def Script.requests (script : Script) (s : Subtable) : List (Request Player) :=
  (((script.find? (·.applies s)).map Rule.actions).getD []).map (Action.request s)

/-- **The script attaches a new receiver of the right kind** to every subtable whose table id belongs to a
kind, and it does nothing else. -/
structure Script.IsPlain (script : Script) : Prop where
  attaches : ∀ s (k : Kind), k.format.accepts s.tableId = true →
    script.requests s = [.attach s (.deliver k {})]
  ignores : ∀ s, (∀ k : Kind, k.format.accepts s.tableId = false) → script.requests s = []

/-- A table id belongs to one kind only. -/
theorem Script.IsPlain.kind_unique {script : Script} (h : script.IsPlain) {s : Subtable} {k l : Kind}
    (hk : k.format.accepts s.tableId = true) (hl : l.format.accepts s.tableId = true) : k = l := by
  have hrequests := (h.attaches s k hk).symm.trans (h.attaches s l hl)
  simp only [List.cons.injEq, Request.attach.injEq, Player.deliver.injEq] at hrequests
  exact hrequests.1.2.1

namespace Router

/-! ### Runs -/

/-- What can come in from the stream. -/
inductive Input where
  | route (s : Section)
  | interrupt
  deriving DecidableEq

/-- What the subtable `s` sees of an input: its own sections, and every break. -/
def Input.seenBy (s : Subtable) : Input → Option Assembly.Input
  | route sect => if sect.subtable = s then some (.receive sect) else none
  | interrupt => some .interrupt

variable {σ δ : Type} (app : Application σ δ)

/-- What one input does. -/
def step (r : Router σ δ) : Input → Router σ δ
  | .route s => (r.route app s).1
  | .interrupt => r.interrupt app

/-- The state after a run. -/
def after (r : Router σ δ) (inputs : List Input) : Router σ δ := inputs.foldl (step app) r

@[simp] theorem after_nil (r : Router σ δ) : r.after app [] = r := rfl

@[simp] theorem after_cons (r : Router σ δ) (input : Input) (inputs : List Input) :
    r.after app (input :: inputs) = (r.step app input).after app inputs := rfl

/-! ### Plain routers -/

/-- The receiver of a subtable, or the one that will be attached to it. -/
def receiverOf (r : Router (List Event) Player) (s : Subtable) : Receiver :=
  match r.registry.find? s with
  | some (.deliver _ receiver) => receiver
  | _ => {}

/-- **No receiver is busy, and each is of the kind that the table id of its subtable belongs to.** -/
structure IsPlain (r : Router (List Event) Player) : Prop where
  free : r.registry.busy = none
  deliver : ∀ s player, r.registry.find? s = some player →
    ∃ (k : Kind) (receiver : Receiver), player = .deliver k receiver ∧
      k.format.accepts s.tableId = true

variable {script : Script} {r : Router (List Event) Player}

/-- The router of an application that has not been asked anything. -/
def start (settings : Settings) : Router (List Event) Player := { state := [], settings }

theorem isPlain_start (settings : Settings) : (start settings).IsPlain where
  free := rfl
  deliver s player h := by
    rw [show (start settings).registry.find? s = none from rfl] at h
    cases h

namespace IsPlain

theorem contains_eq (h : r.IsPlain) (s : Subtable) :
    r.registry.contains s = (r.registry.find? s).isSome := by
  simp [Registry.contains_eq, Registry.busySubtable, h.free]

/-- A receiver that is there is the receiver of its subtable. -/
theorem find?_eq (h : r.IsPlain) (hscript : script.IsPlain) {s : Subtable} {k : Kind}
    (hk : k.format.accepts s.tableId = true) {player : Player}
    (hp : r.registry.find? s = some player) : player = .deliver k (r.receiverOf s) := by
  obtain ⟨l, receiver, rfl, hl⟩ := h.deliver s player hp
  obtain rfl := hscript.kind_unique hk hl
  simp [receiverOf, hp]

/-- **A subtable whose table id belongs to a kind has its receiver when its section is handled**, and
nothing else has changed. -/
theorem welcome (h : r.IsPlain) (hscript : script.IsPlain) {s : Subtable} {k : Kind}
    (hk : k.format.accepts s.tableId = true) :
    (r.welcome script.application s).registry.busy = none ∧
      (∀ t, (r.welcome script.application s).registry.find? t =
        if t = s then some (.deliver k (r.receiverOf s)) else r.registry.find? t) ∧
      ∀ t, Event.deliveries t (r.welcome script.application s).state =
        Event.deliveries t r.state := by
  unfold Router.welcome
  cases hp : r.registry.find? s with
  | some player =>
      have hplayer := h.find?_eq hscript hk hp
      rw [if_pos (by rw [h.contains_eq, hp]; rfl)]
      refine ⟨h.free, fun t => ?_, fun _ => rfl⟩
      split
      · next ht => rw [ht, hp, hplayer]
      · rfl
  | none =>
      have hcontains : r.registry.contains s = false := by rw [h.contains_eq, hp]; rfl
      have hrequests : (script.application.onNewcomer r.registry s r.state).2 =
          [.attach s (.deliver k {})] := hscript.attaches s k hk
      have hreceiver : r.receiverOf s = {} := by simp [receiverOf, hp]
      rw [hcontains, if_neg (by simp)]
      simp only [hrequests, hreceiver, complyAll, List.foldl_cons, List.foldl_nil, comply, perform,
        attach, Registry.insert, hcontains, Bool.false_eq_true, if_false, note]
      refine ⟨h.free, fun t => ?_, fun t => ?_⟩
      · exact Registry.find?_insertEntry s _ r.registry.entries r.registry.busy t
      · simp only [Script.application, Event.deliveries_append, Event.deliveries_newcomer,
          Event.deliveries_answered, List.append_nil]

/-- Handling a section puts the receiver back as it is afterwards. -/
theorem handle (script : Script) (k : Kind) (receiver : Receiver) {sect : Section}
    (hbusy : r.registry.busy = some ⟨sect.subtable, false⟩) :
    (r.handle script.application (.deliver k receiver) sect).registry =
        ⟨insertEntry sect.subtable (.deliver k (receiver.receive k.format sect).value.1)
          r.registry.entries, none⟩ ∧
      (r.handle script.application (.deliver k receiver) sect).state =
        r.state ++ Event.ofTable sect.subtable k (receiver.receive k.format sect).value.2 := by
  simp only [Router.handle, Script.application, Player.handle, complyAll, List.foldl_nil,
    Registry.putBack, hbusy, and_self]

/-- **One section changes one receiver**, that of its subtable, which delivers what it delivers. -/
theorem route (h : r.IsPlain) (hscript : script.IsPlain) {sect : Section} {k : Kind}
    (hk : k.format.accepts sect.subtable.tableId = true) :
    (r.route script.application sect).1.IsPlain ∧
      (∀ t, (r.route script.application sect).1.registry.find? t =
        if t = sect.subtable then
          some (.deliver k ((r.receiverOf sect.subtable).receive k.format sect).value.1)
        else r.registry.find? t) ∧
      ∀ t, Event.deliveries t (r.route script.application sect).1.state =
        Event.deliveries t r.state ++
          if t = sect.subtable then
            (((r.receiverOf sect.subtable).receive k.format sect).value.2.map
              (AnyTable.mk k)).toList
          else [] := by
  obtain ⟨hfree, hfind, hdeliveries⟩ := h.welcome hscript hk
  generalize hw : r.welcome script.application sect.subtable = w at hfree hfind hdeliveries
  have hself : w.registry.find? sect.subtable = some (.deliver k (r.receiverOf sect.subtable)) := by
    rw [hfind, if_pos rfl]
  obtain ⟨out, hout, hsame, hroute⟩ : ∃ out : Router (List Event) Player,
      out.registry = { w.registry.erase sect.subtable with busy := some ⟨sect.subtable, false⟩ } ∧
      out.state = w.state ∧ (r.route script.application sect).1 =
        out.handle script.application (.deliver k (r.receiverOf sect.subtable)) sect := by
    simp only [Router.route, hw, Registry.takeOut, hself]
    refine ⟨_, ?_, ?_, rfl⟩ <;> rfl
  have hbusy : out.registry.busy = some ⟨sect.subtable, false⟩ := by rw [hout]
  obtain ⟨hregistry, hstate⟩ := handle script k (r.receiverOf sect.subtable) hbusy
  rw [hout] at hregistry
  have hnext : ∀ t, (r.route script.application sect).1.registry.find? t =
      if t = sect.subtable then
        some (.deliver k ((r.receiverOf sect.subtable).receive k.format sect).value.1)
      else r.registry.find? t := by
    intro t
    rw [hroute, hregistry, Registry.find?_insertEntry]
    by_cases ht : t = sect.subtable
    · rw [if_pos ht, if_pos ht]
    · have herase := Registry.find?_erase w.registry sect.subtable t
      rw [if_neg ht, if_neg ht]
      rw [if_neg ht, hfind, if_neg ht] at herase
      exact herase
  refine ⟨⟨?_, ?_⟩, hnext, fun t => ?_⟩
  · rw [hroute, hregistry]
  · intro t player hp
    rw [hnext] at hp
    split at hp
    · next ht =>
        obtain rfl := Option.some.inj hp
        exact ⟨k, _, rfl, ht ▸ hk⟩
    · exact h.deliver t player hp
  · rw [hroute, hstate, hsame, Event.deliveries_append, Event.deliveries_ofTable]
    exact congrArg (· ++ _) (hdeliveries t)

/-- A section whose table id belongs to no kind reaches nobody. -/
theorem route_of_unknown (h : r.IsPlain) (hscript : script.IsPlain) {sect : Section}
    (hnone : ∀ k : Kind, k.format.accepts sect.subtable.tableId = false) :
    (r.route script.application sect).1.registry = r.registry ∧
      ∀ t, Event.deliveries t (r.route script.application sect).1.state =
        Event.deliveries t r.state := by
  have hfind : r.registry.find? sect.subtable = none := by
    cases hp : r.registry.find? sect.subtable with
    | none => rfl
    | some player =>
        obtain ⟨k, -, -, hk⟩ := h.deliver _ _ hp
        rw [hnone k] at hk
        cases hk
  have hcontains : r.registry.contains sect.subtable = false := by rw [h.contains_eq, hfind]; rfl
  have hrequests : (script.application.onNewcomer r.registry sect.subtable r.state).2 = [] :=
    hscript.ignores _ hnone
  simp only [Router.route, Router.welcome, hcontains, Bool.false_eq_true, if_false, hrequests,
    complyAll, List.foldl_nil, Registry.takeOut, hfind, note, true_and]
  intro t
  simp only [Script.application, Event.deliveries_append, Event.deliveries_newcomer, List.append_nil]

/-- **A section of another subtable changes nothing for a subtable**, and neither does a section of its
own if its table id belongs to no kind. -/
theorem route_elsewhere (h : r.IsPlain) (hscript : script.IsPlain) {sect : Section} {s : Subtable}
    (hs : sect.subtable = s → ∀ k : Kind, k.format.accepts s.tableId = false) :
    (r.route script.application sect).1.IsPlain ∧
      (r.route script.application sect).1.receiverOf s = r.receiverOf s ∧
      Event.deliveries s (r.route script.application sect).1.state =
        Event.deliveries s r.state := by
  by_cases hknown : ∃ l : Kind, l.format.accepts sect.subtable.tableId = true
  · obtain ⟨l, hl⟩ := hknown
    have hne : s ≠ sect.subtable := by
      rintro rfl
      rw [hs rfl l] at hl
      cases hl
    obtain ⟨hplain, hfind, hdeliveries⟩ := h.route hscript hl
    refine ⟨hplain, ?_, ?_⟩
    · rw [receiverOf, hfind, if_neg hne]
      rfl
    · rw [hdeliveries, if_neg hne, List.append_nil]
  · simp only [not_exists, Bool.not_eq_true] at hknown
    obtain ⟨hregistry, hdeliveries⟩ := h.route_of_unknown hscript hknown
    refine ⟨⟨hregistry ▸ h.free, hregistry ▸ h.deliver⟩, ?_, hdeliveries s⟩
    rw [receiverOf, hregistry]
    rfl

theorem interruptEntries_script (state : List Event) (entries : List (Subtable × Player)) :
    (interruptEntries script.application state entries).2 =
      entries.map fun p => (p.1, (p.2.interrupt p.1 []).2) := by
  induction entries generalizing state with
  | nil => rfl
  | cons p entries ih =>
      obtain ⟨s, player⟩ := p
      simp only [interruptEntries, ih, List.map_cons]
      cases player <;> rfl

theorem deliveries_interruptEntries (t : Subtable) (state : List Event)
    (entries : List (Subtable × Player)) :
    Event.deliveries t (interruptEntries script.application state entries).1 =
      Event.deliveries t state := by
  induction entries generalizing state with
  | nil => rfl
  | cons p entries ih =>
      obtain ⟨s, player⟩ := p
      simp only [interruptEntries, ih]
      cases player with
      | deliver => rfl
      | follow => rfl
      | react => exact (Event.deliveries_append _ _ _).trans (List.append_nil _)

/-- **A break reaches every receiver that is there**, and nothing is delivered. -/
theorem interrupt (script : Script) (h : r.IsPlain) :
    (r.interrupt script.application).IsPlain ∧
      (∀ t, (r.interrupt script.application).registry.find? t =
        (r.registry.find? t).map fun player => (player.interrupt t []).2) ∧
      ∀ t, Event.deliveries t (r.interrupt script.application).state =
        Event.deliveries t r.state := by
  have hfind : ∀ t, (r.interrupt script.application).registry.find? t =
      (r.registry.find? t).map fun player => (player.interrupt t []).2 := by
    intro t
    simp only [Router.interrupt, interruptEntries_script]
    exact Registry.find?_mapEntries (fun s player => (player.interrupt s []).2) r.registry.entries
      r.registry.busy t
  refine ⟨⟨h.free, ?_⟩, hfind, fun t => deliveries_interruptEntries t r.state r.registry.entries⟩
  intro t player hp
  rw [hfind] at hp
  obtain ⟨old, hold, rfl⟩ := Option.map_eq_some_iff.1 hp
  obtain ⟨k, receiver, rfl, hk⟩ := h.deliver t old hold
  exact ⟨k, receiver.interrupt, rfl, hk⟩

/-! ### Runs of plain routers -/

/-- After a break the receiver of a subtable is like an assembly that has seen the break, whether the
receiver was there or not. -/
theorem alike_interrupt (h : r.IsPlain) {s : Subtable} {a : Assembly}
    (ha : (r.receiverOf s).assembly.Alike a) :
    ((r.interrupt script.application).receiverOf s).assembly.Alike a.interrupt := by
  have hfind := (h.interrupt script).2.1 s
  cases hp : r.registry.find? s with
  | none =>
      rw [receiverOf, hp] at ha
      rw [receiverOf, hfind, hp]
      exact ha.interrupt_right Assembly.live_idle
  | some player =>
      obtain ⟨k, receiver, rfl, -⟩ := h.deliver s player hp
      rw [receiverOf, hp] at ha
      rw [receiverOf, hfind, hp]
      exact ha.interrupt

/-- **A receiver follows the single assembly** that is given what the subtable sees: if the two are alike
at first, they deliver the same in every run. -/
theorem deliveries_after (h : r.IsPlain) (hscript : script.IsPlain) {s : Subtable} {k : Kind}
    (hk : k.format.accepts s.tableId = true) {a : Assembly}
    (ha : (r.receiverOf s).assembly.Alike a) (inputs : List Input) :
    Event.deliveries s (r.after script.application inputs).state =
      Event.deliveries s r.state ++
        ((a.outcomes k.format (inputs.filterMap (Input.seenBy s))).filterMap id).map
          (AnyTable.mk k) := by
  induction inputs generalizing r a with
  | nil => simp
  | cons input inputs ih =>
      rw [after_cons]
      cases input with
      | interrupt =>
          obtain ⟨hplain, -, hdeliveries⟩ := h.interrupt script
          rw [step, ih hplain (h.alike_interrupt ha), hdeliveries]
          rfl
      | route sect =>
          by_cases hs : sect.subtable = s
          · -- a section of the subtable: both take it in, and they deliver the same
            have hsect : k.format.accepts sect.subtable.tableId = true := hs ▸ hk
            obtain ⟨hplain, hfind, hdeliveries⟩ := h.route hscript hsect
            obtain ⟨hout, hnext⟩ := ha.step k.format (.receive sect)
            have hreceiver : ((r.route script.application sect).1.receiverOf s).assembly =
                ((r.receiverOf s).assembly.step k.format (.receive sect)).1 := by
              rw [receiverOf, hfind, if_pos hs.symm, hs, Receiver.receive_value]
            have hsees : Input.seenBy s (.route sect) = some (.receive sect) := by
              simp [Input.seenBy, hs]
            rw [step, ih hplain (hreceiver ▸ hnext), hdeliveries, if_pos hs.symm, hs,
              Receiver.receive_value, hout, List.filterMap_cons_some hsees, Assembly.outcomes_cons]
            cases (a.step k.format (.receive sect)).2 <;> simp
          · -- a section of another subtable, which the single assembly does not see
            have hskip : Input.seenBy s (.route sect) = none := by simp [Input.seenBy, hs]
            rw [step, List.filterMap_cons_none hskip]
            obtain ⟨hplain, hreceiver, hdeliveries⟩ :=
              h.route_elsewhere hscript fun heq => absurd heq hs
            rw [ih hplain (hreceiver ▸ ha), hdeliveries]

/-- A subtable whose table id belongs to no kind delivers nothing. -/
theorem deliveries_after_of_unknown (h : r.IsPlain) (hscript : script.IsPlain) {s : Subtable}
    (hs : ∀ k : Kind, k.format.accepts s.tableId = false) (inputs : List Input) :
    Event.deliveries s (r.after script.application inputs).state =
      Event.deliveries s r.state := by
  induction inputs generalizing r with
  | nil => rfl
  | cons input inputs ih =>
      rw [after_cons]
      cases input with
      | interrupt =>
          obtain ⟨hplain, -, hdeliveries⟩ := h.interrupt script
          rw [step, ih hplain, hdeliveries]
      | route sect =>
          obtain ⟨hplain, -, hdeliveries⟩ := h.route_elsewhere hscript fun _ => hs
          rw [step, ih hplain, hdeliveries]

end IsPlain

/-- **Subtables do not influence each other.**  Let the application attach a new receiver of the right kind
to every subtable that comes up, and do nothing else.  Whatever sections and breaks come in, a subtable
delivers exactly what a single assembly of its kind delivers that is given the sections of this subtable and
all the breaks, in the same order.  So runs of which every subtable sees the same deliver the same to every
subtable, however the sections of different subtables are mixed in them. -/
theorem deliveries_separate (script : Script) (hscript : script.IsPlain) (settings : Settings)
    (inputs : List Input) :
    (∀ (s : Subtable) (k : Kind), k.format.accepts s.tableId = true →
      Event.deliveries s ((start settings).after script.application inputs).state =
        ((Assembly.idle.outcomes k.format (inputs.filterMap (Input.seenBy s))).filterMap id).map
          (AnyTable.mk k)) ∧
    ∀ others : List Input,
      (∀ s, others.filterMap (Input.seenBy s) = inputs.filterMap (Input.seenBy s)) →
      ∀ s, Event.deliveries s ((start settings).after script.application others).state =
        Event.deliveries s ((start settings).after script.application inputs).state := by
  have hplain := isPlain_start settings
  have hsingle : ∀ (inputs : List Input) (s : Subtable) (k : Kind),
      k.format.accepts s.tableId = true →
      Event.deliveries s ((start settings).after script.application inputs).state =
        ((Assembly.idle.outcomes k.format (inputs.filterMap (Input.seenBy s))).filterMap id).map
          (AnyTable.mk k) :=
    fun inputs s k hk => hplain.deliveries_after hscript hk (Assembly.Alike.refl _) inputs
  refine ⟨hsingle inputs, ?_⟩
  intro others hothers s
  by_cases hknown : ∃ k : Kind, k.format.accepts s.tableId = true
  · obtain ⟨k, hk⟩ := hknown
    rw [hsingle others s k hk, hsingle inputs s k hk, hothers s]
  · simp only [not_exists, Bool.not_eq_true] at hknown
    rw [hplain.deliveries_after_of_unknown hscript hknown,
      hplain.deliveries_after_of_unknown hscript hknown]

/-! ### A script for all kinds -/

/-- A rule for each table id that belongs to a kind. -/
def everyKind : Script :=
  (List.range 256).filterMap fun n =>
    (Kind.all.find? (·.format.accepts (UInt8.ofNat n))).map fun k =>
      ⟨some (UInt8.ofNat n), none, [.attach none (.deliver k)]⟩

theorem find?_of_accepts {id : UInt8} {k : Kind} (hk : k.format.accepts id = true) :
    Kind.all.find? (·.format.accepts id) = some k := by
  have hfound : ∀ n < 256, ∀ k ∈ Kind.all, k.format.accepts (UInt8.ofNat n) = true →
      Kind.all.find? (·.format.accepts (UInt8.ofNat n)) = some k := by decide +kernel
  have hid : UInt8.ofNat id.toNat = id := UInt8.ofNat_toNat
  have h := hfound id.toNat id.toNat_lt k k.mem_all
  rw [hid] at h
  exact h hk

theorem eq_of_accepts {id : UInt8} {k l : Kind} (hk : k.format.accepts id = true)
    (hl : l.format.accepts id = true) : k = l :=
  Option.some.inj ((find?_of_accepts hk).symm.trans (find?_of_accepts hl))

theorem of_mem_everyKind {rule : Rule} (h : rule ∈ everyKind) {s : Subtable}
    (hs : rule.applies s = true) :
    ∃ k : Kind, k.format.accepts s.tableId = true ∧ rule.actions = [.attach none (.deliver k)] := by
  obtain ⟨n, -, hn⟩ := List.mem_filterMap.1 h
  obtain ⟨k, hk, rfl⟩ := Option.map_eq_some_iff.1 hn
  simp only [Rule.applies, Option.all_some, Option.all_none, Bool.and_true, beq_iff_eq] at hs
  have haccepts : k.format.accepts (UInt8.ofNat n) = true :=
    List.find?_some (p := fun k : Kind => k.format.accepts (UInt8.ofNat n)) hk
  exact ⟨k, hs ▸ haccepts, rfl⟩

theorem exists_mem_everyKind {s : Subtable} {k : Kind} (hk : k.format.accepts s.tableId = true) :
    ∃ rule ∈ everyKind, rule.applies s = true := by
  have hid : UInt8.ofNat s.tableId.toNat = s.tableId := UInt8.ofNat_toNat
  refine ⟨⟨some s.tableId, none, [.attach none (.deliver k)]⟩, ?_, by simp [Rule.applies]⟩
  refine List.mem_filterMap.2 ⟨s.tableId.toNat, List.mem_range.2 s.tableId.toNat_lt, ?_⟩
  rw [hid, find?_of_accepts hk]
  rfl

theorem isPlain_everyKind : Script.IsPlain everyKind where
  attaches s k hk := by
    obtain ⟨rule, hrule, happlies⟩ := exists_mem_everyKind hk
    have hfound : (everyKind.find? (·.applies s)).isSome = true :=
      List.find?_isSome.2 ⟨rule, hrule, happlies⟩
    obtain ⟨first, hfirst⟩ := Option.isSome_iff_exists.1 hfound
    have hfits : first.applies s = true :=
      List.find?_some (p := fun rule : Rule => rule.applies s) hfirst
    obtain ⟨l, hl, hactions⟩ := of_mem_everyKind (List.mem_of_find?_eq_some hfirst) hfits
    rw [Script.requests, hfirst, Option.map_some, Option.getD_some, hactions, eq_of_accepts hl hk]
    rfl
  ignores s hs := by
    have hnone : everyKind.find? (·.applies s) = none := by
      rw [List.find?_eq_none]
      intro rule hrule happlies
      obtain ⟨k, hk, -⟩ := of_mem_everyKind hrule happlies
      rw [hs k] at hk
      cases hk
    rw [Script.requests, hnone]
    rfl

/-- The same section for another stream. -/
def otherStream (s : Section) : Section := { s with header := { s.header with extension := 8 } }

/-- The tables of two streams, section by section in turn, with a break before the second section of the
one and another after all. -/
def mixedRun : List Input :=
  [.route (Assembly.sampleSection 0 1 true), .interrupt,
    .route (otherStream (Assembly.sampleSection 0 3 true)),
    .route (Assembly.sampleSection 1 2 true),
    .route (otherStream (Assembly.sampleSection 1 4 true)),
    .route (Assembly.sampleSection 0 5 true), .interrupt]

/-- Each of the two streams delivers its table, the one that comes late as well. -/
theorem deliveries_separate_mixedRun :
    everyKind.IsPlain ∧
      Event.deliveries ⟨0, 7⟩ ((start {}).after (Script.application everyKind) mixedRun).state =
        [⟨.pat, (⟨7, ⟨1, true⟩, [⟨5, 0x100⟩, ⟨2, 0x100⟩]⟩ : Mpeg.Pat)⟩] ∧
      Event.deliveries ⟨0, 8⟩ ((start {}).after (Script.application everyKind) mixedRun).state =
        [⟨.pat, (⟨8, ⟨1, true⟩, [⟨3, 0x100⟩, ⟨4, 0x100⟩]⟩ : Mpeg.Pat)⟩] := by
  obtain ⟨hsingle, -⟩ := deliveries_separate everyKind isPlain_everyKind {} mixedRun
  exact ⟨isPlain_everyKind, hsingle ⟨0, 7⟩ .pat rfl, hsingle ⟨0, 8⟩ .pat rfl⟩

end Router

end ServiceInfo
