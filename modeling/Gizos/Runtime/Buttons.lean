import Gizos.Fault.Logic

/-! # Button input

How the runtime turns readings of buttons into events. Events wait in a pending list until the
state snapshot is published and the event queue takes them. Press and release edges that the queue
refuses are retained on their source and queued again at the next poll. The event queue answers a
send with success or that it is full; the snapshot is published or deferred.

A source is named by its component id, which the component mapping keeps unique. The lists `sent`,
`edges` and `unpaired` record what happened and are read by no operation.
-/
namespace Gizos.Runtime

open Fault Fault.Program

/-- The kinds of input events. -/
inductive EventKind where
  /-- `H2_RUNTIME_COMPONENT_EVENT_BUTTON_DOWN`. -/
  | buttonDown
  /-- `H2_RUNTIME_COMPONENT_EVENT_BUTTON_UP`. -/
  | buttonUp
  /-- `H2_RUNTIME_COMPONENT_EVENT_BUTTON_ACTION`. -/
  | buttonAction
  /-- Errors and the events of other components. -/
  | other
deriving Repr, DecidableEq

/-- `h2_runtime_input_pending_event_t`. -/
structure Event where
  source : Nat
  kind : EventKind
  /-- When the button was pressed. -/
  pressedAtMs : Nat := 0
  /-- When the button was released. -/
  releasedAtMs : Nat := 0
  /-- Whether the event is kept when it cannot be sent. -/
  retain : Bool := false
deriving Repr, DecidableEq

/-- `h2_runtime_button_retained_edge_t`. -/
structure RetainedEdge where
  /-- When the button was pressed. -/
  pressedAtMs : Nat
  /-- When the button was released. -/
  releasedAtMs : Nat := 0
  release : Bool := false
  /-- Whether the edge is still to be delivered. -/
  edgeOwed : Bool := false
  /-- Whether the final action is still to be delivered. -/
  actionOwed : Bool := false
deriving Repr, DecidableEq

/-- An edge of a button. -/
inductive Edge where
  /-- The button was pressed. -/
  | press (pressedAtMs : Nat)
  /-- The button was released. -/
  | release (pressedAtMs releasedAtMs : Nat)
deriving Repr, DecidableEq

/-- Whether the button is pressed after an edge. -/
def Edge.level : Edge → Bool
  | press _ => true
  | release _ _ => false

/-- The edge that an event tells; held repeats and actions tell none. -/
def Event.edge (event : Event) : Option Edge :=
  if event.retain then
    match event.kind with
    | .buttonDown => some (.press event.pressedAtMs)
    | .buttonUp => some (.release event.pressedAtMs event.releasedAtMs)
    | _ => none
  else none

/-- The edge that is still to be delivered. -/
def RetainedEdge.edge (retained : RetainedEdge) : Option Edge :=
  if retained.edgeOwed then
    some (if retained.release then .release retained.pressedAtMs retained.releasedAtMs
      else .press retained.pressedAtMs)
  else none

variable (edges : List RetainedEdge)

/-- The edges that are still to be delivered. -/
def owed : List Edge := edges.filterMap RetainedEdge.edge

/-- `h2_runtime_input_source_kind_t`, as far as it decides how a source is read. -/
inductive SourceKind where
  /-- A button whose state is polled. -/
  | single
  /-- A button whose edges are pushed. -/
  | push
  /-- A button of a group of which at most one is pressed. -/
  | radio (group : Nat)
  /-- A source without buttons. -/
  | other
deriving Repr, DecidableEq

/-- `h2_runtime_input_source_t` with its button recognizer. -/
structure Source where
  /-- The component id. -/
  id : Nat
  /-- How it is read. -/
  kind : SourceKind
  /-- Whether the button is pressed; `none` until it is read the first time. -/
  pressed : Option Bool := none
  /-- When it was pressed. -/
  pressedAtMs : Nat := 0
  /-- Whether the last reading failed. -/
  failed : Bool := false
  /-- The edges that could not be sent, the oldest first. -/
  retained : List RetainedEdge := []
  /-- Whether the next poll leaves the source out. -/
  skipPollOnce : Bool := false
deriving Repr, DecidableEq

/-- The input part of the runtime's private state. -/
structure Input where
  sources : List Source
  /-- The events that wait for publication, the oldest first. -/
  pending : List Event := []
  /-- How many events can wait. -/
  capacity : Nat
  /-- Whether the state changed since it was published. -/
  dirty : Bool := false
  /-- The events the queue took, the oldest first. -/
  sent : List Event := []
  /-- The edges of the sources, the oldest first. -/
  edges : List (Nat × Edge) := []
  /-- The sources of which an odd number of edges was discarded at once. -/
  unpaired : List Nat := []
deriving Repr, DecidableEq

/-- `H2_RUNTIME_BUTTON_RETAINED_EDGE_MAX`. -/
def retainedEdgeMax : Nat := 2

/-- `evict_retained_edges`: whether the edges it discards come in pairs. -/
def evictsOdd : Bool := (owed edges).length % 2 = 1

/-- Puts an edge behind the retained ones, which are discarded when there are too many: the edges
that are retained then, and whether an odd number was discarded. -/
def pushRetained (edge : RetainedEdge) : List RetainedEdge × Bool :=
  if retainedEdgeMax ≤ edges.length then ([edge], evictsOdd edges)
  else (edges ++ [edge], false)

/-- Whether a final action belongs to a retained release. -/
def RetainedEdge.awaits (retained : RetainedEdge) (event : Event) : Bool :=
  retained.release && !retained.actionOwed && retained.pressedAtMs = event.pressedAtMs &&
    retained.releasedAtMs = event.releasedAtMs

/-- The part of `retain_button_event` for a final action. -/
def retainFinalAction (event : Event) : List RetainedEdge × Bool :=
  let alone : RetainedEdge := {
    pressedAtMs := event.pressedAtMs, releasedAtMs := event.releasedAtMs, release := true
    actionOwed := true }
  match edges.getLast? with
  | some last =>
    -- The final action joins the release that was retained right before it.
    if last.awaits event then (edges.dropLast ++ [{ last with actionOwed := true }], false)
    else pushRetained edges alone
  | none => pushRetained edges alone

/-- `retain_button_event`. -/
def retainButtonEvent (event : Event) : List RetainedEdge × Bool :=
  match event.kind with
  | .buttonDown => pushRetained edges { pressedAtMs := event.pressedAtMs, edgeOwed := true }
  | .buttonUp =>
    pushRetained edges {
      pressedAtMs := event.pressedAtMs, releasedAtMs := event.releasedAtMs, release := true
      edgeOwed := true }
  | _ => retainFinalAction edges event

variable (input : Input)

namespace Input

/-- `h2_runtime_find_input_source`. -/
def find (id : Nat) : Option Source := input.sources.find? (·.id = id)

/-- The edges a source retains. -/
def retained (id : Nat) : List RetainedEdge :=
  ((input.find id).map Source.retained).getD []

/-- Whether a button is pressed. -/
def level (id : Nat) : Bool := ((input.find id).bind Source.pressed).getD false

/-- Changes a source. -/
def modify (id : Nat) (change : Source → Source) : Input :=
  { input with sources := input.sources.map fun source =>
      if source.id = id then change source else source }

/-- `keep_or_drop_input_event`. -/
def keepOrDrop (event : Event) : Input :=
  if event.retain then
    let (retained, odd) := retainButtonEvent (input.retained event.source) event
    { input.modify event.source fun source => { source with retained } with
      unpaired := input.unpaired ++ if odd then [event.source] else [] }
  else input

/-- `spill_source_pending_events`. -/
def spill (id : Nat) : Input :=
  { (input.pending.filter (·.source = id)).foldl keepOrDrop input with
    pending := input.pending.filter (·.source ≠ id) }

/-- `append_input_event`. -/
def append (event : Event) : Input :=
  if input.retained event.source ≠ [] then input.keepOrDrop event
  else if input.capacity ≤ input.pending.length then
    (if event.retain then input.spill event.source else input).keepOrDrop event
  else { input with pending := input.pending ++ [event], dirty := true }

/-- Notes an edge of a button. -/
def noteEdge (id : Nat) (edge : Edge) : Input :=
  { input with edges := input.edges ++ [(id, edge)] }

end Input

/-- A program whose calls are answered with success or refusal. -/
abbrev Routine (α : Type) : Type := Program Bool Input α

/-- `send_input_event`: whether the queue took the event. -/
def sendInputEvent (event : Event) : Routine Bool :=
  call fun taken input =>
    .returns taken (if taken then { input with sent := input.sent ++ [event] } else input)

/-- `publish_snapshot`: whether the state was published. -/
def publishSnapshot : Routine Bool :=
  call fun published input =>
    .returns published (if published then { input with dirty := false } else input)

/-- The loop of `enqueue_pending_events`; the first refusal stops the sending. -/
def enqueueEvents : Bool → List Event → Routine Unit
  | _, [] => pure ()
  | true, event :: rest => do
    update (·.keepOrDrop event)
    enqueueEvents true rest
  | false, event :: rest => do
    if ← sendInputEvent event then enqueueEvents false rest
    else do
      update (·.keepOrDrop event)
      enqueueEvents true rest

/-- `enqueue_pending_events`. -/
def enqueuePendingEvents : Routine Unit := do
  let pending ← read Input.pending
  enqueueEvents false pending
  update fun input => { input with pending := [] }

/-- `publish_pending_events`. -/
def publishPendingEvents : Routine Unit := do
  let input ← read id
  if input.pending = [] then pure ()
  else if input.dirty then do
    if ← publishSnapshot then enqueuePendingEvents else pure ()
  else enqueuePendingEvents

/-- `retained_event_count`. -/
def retainedEventCount : Nat :=
  (edges.map fun edge => edge.edgeOwed.toNat + edge.actionOwed.toNat).sum

/-- The events that a retained edge owes. -/
def RetainedEdge.events (id : Nat) (edge : RetainedEdge) : List Event :=
  (if edge.edgeOwed then
    [if edge.release then
      { source := id, kind := .buttonUp, pressedAtMs := edge.pressedAtMs
        releasedAtMs := edge.releasedAtMs, retain := true }
    else { source := id, kind := .buttonDown, pressedAtMs := edge.pressedAtMs, retain := true }]
  else []) ++
  (if edge.actionOwed then
    [{ source := id, kind := .buttonAction, pressedAtMs := edge.pressedAtMs
       releasedAtMs := edge.releasedAtMs, retain := true }]
  else [])

namespace Input

/-- Whether a source has retained edges whose events all fit the pending list. -/
def requeues (name : Nat) : Bool :=
  input.retained name ≠ [] &&
    retainedEventCount (input.retained name) ≤ input.capacity - input.pending.length

/-- Moves the retained edges of a source back into the pending list. -/
def requeue (name : Nat) : Input :=
  ((input.retained name).flatMap (RetainedEdge.events name)).foldl append
    (input.modify name fun source => { source with retained := [] })

end Input

/-- The loop of `requeue_retained_edges`: whether some edges went back. -/
def requeueSources : List Nat → Routine Bool
  | [] => pure false
  | name :: rest => do
    let input ← read id
    if input.requeues name then do
      update (·.requeue name)
      let _ ← requeueSources rest
      pure true
    else requeueSources rest

/-- `requeue_retained_edges`. -/
def requeueRetainedEdges : Routine Bool := do
  let names ← read fun input : Input => input.sources.map Source.id
  requeueSources names

namespace Input

/-- `publish_error`. -/
def publishError (name : Nat) : Input :=
  { input.modify name fun source => { source with failed := true } with dirty := true }.append
    { source := name, kind := .other }

/-- A button is read and differs from what the state says. -/
def settle (name : Nat) (pressed : Bool) (pressedAtMs : Nat) : Input :=
  { input.modify name fun source =>
      { source with pressed := some pressed, pressedAtMs, failed := false } with dirty := true }

/-- A button is pressed: `BUTTON_DOWN` is an edge, `BUTTON_ACTION` may be lost. -/
def press (name nowMs : Nat) : Input :=
  (((input.settle name true nowMs).noteEdge name (.press nowMs)).append
    { source := name, kind := .buttonDown, pressedAtMs := nowMs, retain := true }).append
    { source := name, kind := .buttonAction, pressedAtMs := nowMs }

/-- A button is held: it repeats its events, which may be lost. -/
def hold (name pressedAtMs : Nat) : Input :=
  ((input.settle name true pressedAtMs).append
    { source := name, kind := .buttonDown, pressedAtMs }).append
    { source := name, kind := .buttonAction, pressedAtMs }

/-- A button is released: `BUTTON_UP` is an edge and the final `BUTTON_ACTION` goes with it. -/
def release (name pressedAtMs nowMs : Nat) : Input :=
  (((input.settle name false pressedAtMs).noteEdge name (.release pressedAtMs nowMs)).append
    { source := name, kind := .buttonUp, pressedAtMs, releasedAtMs := nowMs
      retain := true }).append
    { source := name, kind := .buttonAction, pressedAtMs, releasedAtMs := nowMs
      retain := true }

/-- `update_button_pressed`. -/
def updateButtonPressed (name : Nat) (isPressed : Bool) (nowMs : Nat) : Input :=
  match input.find name with
  | none => input
  | some source =>
    match source.pressed, isPressed with
    | none, true => input.press name nowMs
    | none, false => input.settle name false source.pressedAtMs
    | some false, true => input.press name nowMs
    | some true, true => input.hold name source.pressedAtMs
    | some true, false => input.release name source.pressedAtMs nowMs
    | some false, false =>
      if source.failed then input.settle name false source.pressedAtMs else input

end Input

/-- What the platform reads during one poll. -/
structure Readings where
  /-- The time of the poll. -/
  nowMs : Nat
  /-- The edges that were pushed: the source, whether it went down, and when. -/
  pushed : List (Nat × Bool × Nat) := []
  /-- Whether a source is due. -/
  due : Nat → Bool := fun _ => true
  /-- Whether a polled button is pressed, if it can be read. -/
  single : Nat → Option Bool := fun _ => none
  /-- The pressed button of a group, zero for none, if the group can be read. -/
  group : Nat → Option Nat := fun _ => none
  /-- The sources without buttons whose state was changed by a report since the last poll. -/
  reports : List Nat := []
  /-- Whether reading a source without buttons changes the state. -/
  changes : Nat → Bool := fun _ => false
  /-- How many events a source without buttons has. -/
  others : Nat → Nat := fun _ => 0

/-- The loop of `consume_push_button_edges`. -/
def consumePushButtonEdges : List (Nat × Bool × Nat) → Routine Unit
  | [] => pure ()
  | (name, down, timestampMs) :: rest => do
    let input ← read id
    if (input.find name).any (·.kind = .push) then do
      update fun input => (input.updateButtonPressed name down timestampMs).modify name
        fun source => { source with skipPollOnce := true }
      publishPendingEvents
      consumePushButtonEdges rest
    else consumePushButtonEdges rest

namespace Input

/-- `poll_radio_button_group`. -/
def pollRadioButtonGroup (group : Nat) (pressed : Option Nat) (nowMs : Nat) :
    Input :=
  (input.sources.filter (·.kind = .radio group)).foldl (fun input source =>
    match pressed with
    | some pressedId => input.updateButtonPressed source.id (pressedId = source.id) nowMs
    | none => input.publishError source.id) input

/-- Reads one source. -/
def pollSource (readings : Readings) (earlier : List Source) (source : Source) :
    Input :=
  match source.kind with
  | .single =>
    match readings.single source.id with
    | some pressed => input.updateButtonPressed source.id pressed readings.nowMs
    | none => input.publishError source.id
  | .push => input.updateButtonPressed source.id (input.level source.id) readings.nowMs
  | .radio group =>
    if earlier.any (·.kind = .radio group) then input
    else input.pollRadioButtonGroup group (readings.group group) readings.nowMs
  | .other => (List.replicate (readings.others source.id)
      ({ source := source.id, kind := .other } : Event)).foldl append
      { input with dirty := input.dirty || readings.changes source.id }

/-- `consume_nfc_results`. A report changes the state also when its event is dropped. -/
def consumeReports (reports : List Nat) : Input :=
  reports.foldl (fun input name =>
    { input with dirty := true }.append { source := name, kind := .other }) input

end Input

/-- The loop of `input_poll_once_unlocked` over the sources. -/
def pollSources (readings : Readings) : List Source → List Source → Routine Unit
  | _, [] => pure ()
  | earlier, source :: rest => do
    let input ← read id
    if (input.find source.id).any (·.skipPollOnce) then
      update (·.modify source.id fun source => { source with skipPollOnce := false })
    else if readings.due source.id then do
      update (·.pollSource readings earlier source)
      publishPendingEvents
    else pure ()
    pollSources readings (earlier ++ [source]) rest

/-- `input_poll_once_unlocked`. -/
def inputPollOnce (readings : Readings) : Routine Unit := do
  if ← requeueRetainedEdges then publishPendingEvents
  consumePushButtonEdges readings.pushed
  update (·.consumeReports readings.reports)
  let sources ← read Input.sources
  pollSources readings [] sources
  let input ← read id
  if input.dirty then do
    let _ ← publishSnapshot

/-- The input before the first poll: the sources with their ids and kinds. -/
def Input.start (capacity : Nat) (sources : List (Nat × SourceKind)) : Input where
  sources := sources.map fun source => { id := source.1, kind := source.2 }
  capacity := capacity

/-- The input after some polls, whatever is read and however the queue and the publication
answer. -/
inductive Polled (start : Input) : Input → Prop where
  | start : Polled start start
  | poll {before after : Input} (readings : Readings) (earlier : Polled start before)
      (reaches : Reaches (fun _ => True) (inputPollOnce readings) before after) :
      Polled start after

end Gizos.Runtime
