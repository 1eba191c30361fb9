import Gizos.Alternation
import Gizos.Runtime.Buttons

/-! # The line of button edges

The edges of one button on their way to the consumer form one line: the delivered ones, the
retained ones, and the ones of the pending events. As long as only even numbers of its edges are
discarded at once, the line alternates, keeps the order in which the edges happened, and ends at the
level of the button.
-/
namespace Gizos.Runtime

open Fault Alternation Input

variable {name other : Nat} {input : Input} {event : Event} {todo extra : List Event}

/-- The edges of a button that a list of events tells. -/
def edgesOf (name : Nat) (events : List Event) : List Edge :=
  events.filterMap fun event => if event.source = name then event.edge else none

namespace Input

/-- The edges of a button that the consumer was told. -/
def delivered (input : Input) (name : Nat) : List Edge := edgesOf name input.sent

/-- The edges of a button, as they happened. -/
def history (input : Input) (name : Nat) : List Edge :=
  (input.edges.filter (·.1 = name)).map Prod.snd

/-- The edges of a button on their way, when the events `todo` wait. -/
def line (input : Input) (name : Nat) (todo : List Event) : List Edge :=
  input.delivered name ++ owed (input.retained name) ++ edgesOf name todo

end Input

/-! ### Events and retained edges -/

/-- No events tell no edges. -/
@[simp] theorem edgesOf_nil : edgesOf name [] = [] := rfl

/-- Two lists tell their edges in order. -/
@[simp] theorem edgesOf_append (front back : List Event) :
    edgesOf name (front ++ back) = edgesOf name front ++ edgesOf name back :=
  List.filterMap_append

/-- The edge of the first event comes first. -/
theorem edgesOf_cons (event : Event) (todo : List Event) :
    edgesOf name (event :: todo) = edgesOf name [event] ++ edgesOf name todo :=
  edgesOf_append [event] todo

/-- An event of the button tells its edge. -/
theorem edgesOf_own (own : event.source = name) : edgesOf name [event] = event.edge.toList := by
  unfold edgesOf
  cases told : event.edge with
  | none => simp [told]
  | some edge => simp [own, told]

/-- Events of others tell nothing of the button. -/
theorem edgesOf_foreign (foreign : ∀ event ∈ todo, event.source ≠ name) :
    edgesOf name todo = [] := by
  unfold edgesOf
  rw [List.filterMap_eq_nil_iff]
  intro event member
  simp [foreign event member]

/-- An event that may be lost tells no edge. -/
theorem edgesOf_lossy (lossy : event.retain = false) : edgesOf name [event] = [] := by
  simp [edgesOf, Event.edge, lossy]

/-- Splitting off the events of one source does not reorder the edges of a button. -/
theorem edgesOf_split (source : Nat) (events : List Event) :
    edgesOf name (events.filter (·.source = source) ++ events.filter (·.source ≠ source)) =
      edgesOf name events := by
  by_cases own : source = name
  · have foreign : edgesOf name (events.filter (·.source ≠ source)) = [] :=
      edgesOf_foreign fun event member => by
        have kept := (List.mem_filter.mp member).2
        simpa [own] using kept
    rw [edgesOf_append, foreign, List.append_nil]
    unfold edgesOf
    rw [List.filterMap_filter]
    refine List.filterMap_congr fun event _ => ?_
    by_cases mine : event.source = name <;> simp [own, mine]
  · have foreign : edgesOf name (events.filter (·.source = source)) = [] :=
      edgesOf_foreign fun event member => by
        have kept := (List.mem_filter.mp member).2
        have from_source : event.source = source := by simpa using kept
        exact fun mine => own (from_source.symm.trans mine)
    rw [edgesOf_append, foreign]
    unfold edgesOf
    rw [List.filterMap_filter]
    refine List.filterMap_congr fun event _ => ?_
    by_cases mine : event.source = name
    · simp [mine, Ne.symm own]
    · simp [mine]

/-- Two lists owe their edges in order. -/
@[simp] theorem owed_append (front back : List RetainedEdge) :
    owed (front ++ back) = owed front ++ owed back :=
  List.filterMap_append

/-- What retaining an event does to the edges that are owed: its edge joins them, or takes the place
of all of them. -/
def Retains (before after : List RetainedEdge) (odd : Bool) (edge : Option Edge) : Prop :=
  (owed after = owed before ++ edge.toList) ∨
    (owed after = edge.toList ∧ (odd = false → (owed before).length % 2 = 0))

section

variable (retained : List RetainedEdge)

include retained

/-- A retained edge joins the others or replaces them. -/
theorem retains_pushRetained (edge : RetainedEdge) :
    Retains retained (pushRetained retained edge).1 (pushRetained retained edge).2 edge.edge := by
  have single : owed [edge] = edge.edge.toList := by
    unfold owed
    cases told : edge.edge <;> simp [told]
  unfold pushRetained
  by_cases full : retainedEdgeMax ≤ retained.length
  · rw [if_pos full]
    refine .inr ⟨single, fun even => ?_⟩
    have : ¬(owed retained).length % 2 = 1 := by simpa [evictsOdd] using even
    omega
  · rw [if_neg full]
    exact .inl (by rw [owed_append, single])

/-- A final action owes no edge. -/
theorem retains_retainFinalAction :
    Retains retained (retainFinalAction retained event).1 (retainFinalAction retained event).2
      none := by
  unfold retainFinalAction
  cases found : retained.getLast? with
  | none => exact retains_pushRetained retained _
  | some last =>
    by_cases joins : last.awaits event
    · -- The release that the action joins owes the same edge as before.
      obtain ⟨front, rfl⟩ := List.getLast?_eq_some_iff.mp found
      have same : owed [{ last with actionOwed := true }] = owed [last] := rfl
      have owes : owed (front ++ [{ last with actionOwed := true }]) = owed (front ++ [last]) := by
        rw [owed_append, owed_append, same]
      simpa [joins, Retains] using Or.inl owes
    · simp only [joins]
      exact retains_pushRetained retained _

/-- The edge of an event is owed. -/
theorem retains_retainButtonEvent (kept : event.retain = true) :
    Retains retained (retainButtonEvent retained event).1 (retainButtonEvent retained event).2
      event.edge := by
  unfold retainButtonEvent Event.edge
  rw [if_pos kept]
  cases event.kind with
  | buttonDown | buttonUp => exact retains_pushRetained retained _
  | buttonAction | other => exact retains_retainFinalAction retained

/-- The events of retained edges tell what is owed. -/
theorem edgesOf_events :
    edgesOf name (retained.flatMap (RetainedEdge.events name)) = owed retained := by
  induction retained with
  | nil => rfl
  | cons edge rest step =>
    have head : edgesOf name (edge.events name) = owed [edge] := by
      obtain ⟨pressedAtMs, releasedAtMs, release, edgeOwed, actionOwed⟩ := edge
      cases release <;> cases edgeOwed <;> cases actionOwed <;>
        simp [RetainedEdge.events, edgesOf, owed, Event.edge, RetainedEdge.edge]
    rw [List.flatMap_cons, edgesOf_append, head, step, ← owed_append]
    rfl

end

/-- The events of retained edges are of the button. -/
theorem source_of_events {retained : List RetainedEdge}
    (member : event ∈ retained.flatMap (RetainedEdge.events name)) : event.source = name := by
  obtain ⟨edge, -, among⟩ := List.mem_flatMap.mp member
  rcases List.mem_append.mp among with among | among
  · split at among
    · split at among <;> simp_all
    · simp at among
  · split at among <;> simp_all

/-! ### Changing a source -/

namespace Input

variable {change : Source → Source}

section

variable (same : ∀ source, (change source).id = source.id)

include same

/-- Only the one source changes. -/
theorem find_modify :
    (input.modify other change).find name =
      if name = other then (input.find name).map change else input.find name := by
  unfold find modify
  simp only [List.find?_map]
  have matches_ : (fun source : Source => decide ((if source.id = other then change source
      else source).id = name)) = fun source => decide (source.id = name) := by
    funext source
    by_cases hit : source.id = other <;> simp [hit, same]
  have unfolded : ((fun source : Source => decide (source.id = name)) ∘ fun source =>
      if source.id = other then change source else source) =
      fun source => decide (source.id = name) := matches_
  rw [unfolded]
  cases found : input.sources.find? fun source => decide (source.id = name) with
  | none => simp
  | some source =>
    have named : source.id = name := by simpa using List.find?_some found
    by_cases hit : name = other
    · simp [named, hit]
    · simp [named, hit]

/-- A change adds and removes no source. -/
theorem isSome_find_modify :
    ((input.modify other change).find name).isSome = (input.find name).isSome := by
  rw [find_modify same]
  split <;> simp

/-- A change that keeps the state keeps the level. -/
theorem level_modify (steady : ∀ source, (change source).pressed = source.pressed) :
    (input.modify other change).level name = input.level name := by
  unfold level
  rw [find_modify same]
  split
  · cases input.find name <;> simp [steady]
  · rfl

/-- A change may keep what is retained. -/
theorem retained_modify (steady : ∀ source, (change source).retained = source.retained) :
    (input.modify other change).retained name = input.retained name := by
  unfold retained
  rw [find_modify same]
  split
  · cases input.find name <;> simp [steady]
  · rfl

/-- A change of another source keeps what is retained. -/
theorem retained_modify_of_ne (apart : name ≠ other) : (input.modify other change).retained name =
    input.retained name := by
  unfold retained
  rw [find_modify same, if_neg apart]

end

end Input

/-! ### The line of edges -/

/-- The line of edges of a button alternates, ends at the level of the button and keeps the order in
which the edges happened. -/
structure Paired (name : Nat) (todo : List Event) (input : Input) : Prop where
  alternates : Alternating Edge.level false (input.line name todo)
  finishes : finish Edge.level false (input.line name todo) = input.level name
  ordered : (input.line name todo).Sublist (input.history name)

/-- What holds of a button while the events `extra` are about to be appended. -/
structure Sound (name : Nat) (extra : List Event) (input : Input) : Prop where
  known : (input.find name).isSome
  exclusive : input.retained name = [] ∨ ∀ event ∈ input.pending, event.source ≠ name
  paired : name ∉ input.unpaired → Paired name (input.pending ++ extra) input

/-- Two inputs with the same line, level and history are paired alike. -/
theorem Paired.congr {after : Input} {todo' : List Event} (paired : Paired name todo input)
    (line : after.line name todo' = input.line name todo)
    (level : after.level name = input.level name)
    (history : after.history name = input.history name) : Paired name todo' after where
  alternates := by rw [line]; exact paired.alternates
  finishes := by rw [line, level]; exact paired.finishes
  ordered := by rw [line, history]; exact paired.ordered

/-- Inputs that agree are sound alike. -/
theorem Sound.congr {after : Input} (sound : Sound name extra input)
    (sources : after.sources = input.sources) (pending : after.pending = input.pending)
    (sent : after.sent = input.sent) (edges : after.edges = input.edges)
    (unpaired : after.unpaired = input.unpaired) : Sound name extra after where
  known := by simpa [Input.find, sources] using sound.known
  exclusive := by simpa [Input.retained, Input.find, sources, pending] using sound.exclusive
  paired fine := by
    rw [pending]
    refine (sound.paired (unpaired ▸ fine)).congr ?_ ?_ ?_
    · simp [Input.line, Input.delivered, Input.retained, Input.find, sources, sent]
    · simp [Input.level, Input.find, sources]
    · simp [Input.history, edges]

namespace Input

/-- What is retained can be set. -/
theorem retained_set (known : (input.find name).isSome) (edges : List RetainedEdge) :
    (input.modify name fun source => { source with retained := edges }).retained name = edges := by
  unfold retained
  obtain ⟨source, found⟩ := Option.isSome_iff_exists.mp known
  rw [find_modify, if_pos rfl, found]
  · rfl
  · exact fun _ => rfl

/-- Setting it for another source keeps it. -/
theorem retained_set_of_ne (apart : name ≠ other) (edges : List RetainedEdge) :
    (input.modify other fun source => { source with retained := edges }).retained name =
      input.retained name :=
  retained_modify_of_ne (fun _ => rfl) apart

/-- A reading settles the one source. -/
theorem find_settle (pressed : Bool) (pressedAtMs : Nat) :
    (input.settle other pressed pressedAtMs).find name =
      if name = other then (input.find name).map fun source =>
        { source with pressed := some pressed, pressedAtMs, failed := false }
      else input.find name :=
  find_modify fun _ => rfl

/-- The level is what was read. -/
theorem level_settle (known : (input.find name).isSome) (pressed : Bool) (pressedAtMs : Nat) :
    (input.settle other pressed pressedAtMs).level name =
      if name = other then pressed else input.level name := by
  obtain ⟨source, found⟩ := Option.isSome_iff_exists.mp known
  unfold level
  rw [find_settle]
  split
  · simp [found]
  · rfl

/-- A reading keeps what is retained. -/
theorem retained_settle (pressed : Bool) (pressedAtMs : Nat) :
    (input.settle other pressed pressedAtMs).retained name = input.retained name :=
  retained_modify (fun _ => rfl) fun _ => rfl

/-- A reading adds and removes no source. -/
theorem isSome_find_settle (pressed : Bool) (pressedAtMs : Nat) :
    ((input.settle other pressed pressedAtMs).find name).isSome = (input.find name).isSome :=
  isSome_find_modify fun _ => rfl

/-! ### Retaining an event -/

/-- An event that may be lost is dropped. -/
theorem keepOrDrop_lossy (lossy : event.retain = false) : input.keepOrDrop event = input := by
  simp [keepOrDrop, lossy]

/-- Any other event is retained at its source. -/
theorem keepOrDrop_of_retain (kept : event.retain = true) :
    input.keepOrDrop event =
      { input.modify event.source fun source =>
          { source with retained := (retainButtonEvent (input.retained event.source) event).1 } with
        unpaired := input.unpaired ++
          if (retainButtonEvent (input.retained event.source) event).2 then [event.source]
          else [] } := by
  simp [keepOrDrop, kept]

/-- Retaining changes neither the events nor the history, nor the level of a button. -/
theorem keepOrDrop_frame :
    (input.keepOrDrop event).sent = input.sent ∧ (input.keepOrDrop event).pending = input.pending ∧
      (input.keepOrDrop event).edges = input.edges ∧
      (input.keepOrDrop event).level name = input.level name ∧
      ((input.keepOrDrop event).find name).isSome = (input.find name).isSome := by
  cases kept : event.retain with
  | false => simp [keepOrDrop_lossy kept]
  | true =>
    rw [keepOrDrop_of_retain kept]
    exact ⟨rfl, rfl, rfl, level_modify (fun _ => rfl) fun _ => rfl, isSome_find_modify fun _ => rfl⟩

/-- A discarded edge stays on record. -/
theorem unpaired_of_keepOrDrop (fine : name ∉ (input.keepOrDrop event).unpaired) :
    name ∉ input.unpaired := by
  cases kept : event.retain with
  | false => rwa [keepOrDrop_lossy kept] at fine
  | true =>
    rw [keepOrDrop_of_retain kept] at fine
    exact fun listed => fine (List.mem_append_left _ listed)

/-- Retaining for another source keeps it. -/
theorem retained_keepOrDrop_of_ne (apart : name ≠ event.source) :
    (input.keepOrDrop event).retained name = input.retained name := by
  cases kept : event.retain with
  | false => rw [keepOrDrop_lossy kept]
  | true =>
    rw [keepOrDrop_of_retain kept]
    exact retained_modify_of_ne (fun _ => rfl) apart

end Input

/-- Retaining the first waiting event keeps the line paired. -/
theorem Paired.keepOrDrop (known : (input.find name).isSome)
    (fine : name ∉ (input.keepOrDrop event).unpaired) (paired : Paired name (event :: todo) input) :
    Paired name todo (input.keepOrDrop event) := by
  obtain ⟨sent, -, edges, level, -⟩ := @Input.keepOrDrop_frame name input event
  have delivered : (input.keepOrDrop event).delivered name = input.delivered name := by
    rw [Input.delivered, sent, Input.delivered]
  have history : (input.keepOrDrop event).history name = input.history name := by
    rw [Input.history, edges, Input.history]
  have before : input.line name (event :: todo) =
      input.delivered name ++ owed (input.retained name) ++
        (edgesOf name [event] ++ edgesOf name todo) := by
    rw [Input.line, edgesOf_cons]
  by_cases own : event.source = name
  · cases kept : event.retain with
    | false =>
      refine paired.congr ?_ level history
      rw [before, edgesOf_lossy kept, keepOrDrop_lossy kept, List.nil_append, Input.line]
    | true =>
      have replaced : (input.keepOrDrop event).retained name =
          (retainButtonEvent (input.retained name) event).1 := by
        rw [keepOrDrop_of_retain kept, own]
        exact retained_set known _
      have even : (retainButtonEvent (input.retained name) event).2 = false := by
        rw [keepOrDrop_of_retain kept, own] at fine
        by_contra odd
        exact fine (List.mem_append_right _ (by simp [odd]))
      have after : (input.keepOrDrop event).line name todo = input.delivered name ++
          owed (retainButtonEvent (input.retained name) event).1 ++ edgesOf name todo := by
        rw [Input.line, delivered, replaced]
      rcases retains_retainButtonEvent (input.retained name) kept with joined | ⟨alone, paired_off⟩
      · refine paired.congr ?_ level history
        rw [after, joined, before, edgesOf_own own]
        simp only [List.append_assoc]
      · -- An even number of edges leaves the middle of the line.
        have cut := Alternating.cut (before ▸ paired.alternates) (paired_off even)
        have shorter : (input.keepOrDrop event).line name todo =
            input.delivered name ++ (edgesOf name [event] ++ edgesOf name todo) := by
          rw [after, alone, edgesOf_own own, List.append_assoc]
        have inside : (input.delivered name ++ (edgesOf name [event] ++ edgesOf name todo)).Sublist
            (input.line name (event :: todo)) := by
          rw [before, List.append_assoc]
          exact (List.sublist_append_right _ _).append_left _
        constructor
        · rw [shorter]
          exact cut.1
        · rw [shorter, cut.2, ← before, level]
          exact paired.finishes
        · rw [shorter, history]
          exact inside.trans paired.ordered
  · refine paired.congr ?_ level history
    have foreign : edgesOf name [event] = [] := edgesOf_foreign (by simpa using own)
    rw [before, foreign, List.nil_append, Input.line, delivered,
      retained_keepOrDrop_of_ne (Ne.symm own)]

/-- Retaining many events leaves the same things alone. -/
theorem Input.foldl_keepOrDrop_frame (events : List Event) (input : Input) :
    ((events.foldl keepOrDrop input).find name).isSome = (input.find name).isSome ∧
      (name ∉ (events.foldl keepOrDrop input).unpaired → name ∉ input.unpaired) ∧
      ((∀ event ∈ events, event.source ≠ name) →
        (events.foldl keepOrDrop input).retained name = input.retained name) := by
  induction events generalizing input with
  | nil => simp
  | cons event rest step =>
    obtain ⟨-, -, -, -, known⟩ := @keepOrDrop_frame name input event
    obtain ⟨known', fine, apart⟩ := step (input.keepOrDrop event)
    refine ⟨known'.trans known, fun later => unpaired_of_keepOrDrop (fine later), fun foreign => ?_⟩
    rw [List.forall_mem_cons] at foreign
    exact (apart foreign.2).trans (retained_keepOrDrop_of_ne foreign.1.symm)

/-- Retaining the waiting events in order keeps the line paired. -/
theorem Paired.foldl_keepOrDrop {events : List Event} (known : (input.find name).isSome)
    (fine : name ∉ (events.foldl Input.keepOrDrop input).unpaired)
    (paired : Paired name (events ++ todo) input) :
    Paired name todo (events.foldl Input.keepOrDrop input) := by
  induction events generalizing input with
  | nil => exact paired
  | cons event rest step =>
    have frame := @Input.keepOrDrop_frame name input event
    have later := @Input.foldl_keepOrDrop_frame name rest (input.keepOrDrop event)
    refine step (by rw [frame.2.2.2.2]; exact known) fine ?_
    exact Paired.keepOrDrop known (later.2.1 fine) paired

/-- Spilling the events of a source keeps a button sound. -/
theorem Sound.spill (sound : Sound name extra input) (source : Nat) :
    Sound name extra (input.spill source) := by
  obtain ⟨known, fine, apart⟩ :=
    @Input.foldl_keepOrDrop_frame name (input.pending.filter (·.source = source)) input
  constructor
  · exact known.trans sound.known
  · by_cases own : source = name
    · right
      intro event member
      have kept := (List.mem_filter.mp member).2
      simpa [own] using kept
    · have unchanged : (input.spill source).retained name = input.retained name := by
        refine apart fun event member => ?_
        have from_source := (List.mem_filter.mp member).2
        have named : event.source = source := by simpa using from_source
        exact fun mine => own (named.symm.trans mine)
      rw [unchanged]
      exact sound.exclusive.imp_right fun foreign event member =>
        foreign event (List.mem_filter.mp member).1
  · intro after
    have split : Paired name (input.pending.filter (·.source = source) ++
        (input.pending.filter (·.source ≠ source) ++ extra)) input := by
      refine (sound.paired (fine after)).congr ?_ rfl rfl
      rw [Input.line, Input.line, ← List.append_assoc (input.pending.filter _), edgesOf_append,
        edgesOf_split, ← edgesOf_append]
    exact (Paired.foldl_keepOrDrop sound.known after split).congr rfl rfl rfl

/-- Retaining an event is sound when none of its source waits. -/
theorem Sound.keepOrDrop (sound : Sound name (event :: extra) input)
    (waits : event.source = name → event.retain = true → ∀ earlier ∈ input.pending,
      earlier.source ≠ name) : Sound name extra (input.keepOrDrop event) := by
  obtain ⟨-, pending, -, -, known⟩ := @Input.keepOrDrop_frame name input event
  have exclusive : (input.keepOrDrop event).retained name = [] ∨
      ∀ earlier ∈ (input.keepOrDrop event).pending, earlier.source ≠ name := by
    rw [pending]
    by_cases own : event.source = name
    · cases kept : event.retain with
      | false => rw [keepOrDrop_lossy kept]; exact sound.exclusive
      | true => exact .inr (waits own kept)
    · rw [retained_keepOrDrop_of_ne (Ne.symm own)]
      exact sound.exclusive
  refine ⟨known.trans sound.known, exclusive, fun fine => ?_⟩
  rw [pending]
  have before := sound.paired (unpaired_of_keepOrDrop fine)
  refine Paired.keepOrDrop sound.known fine (before.congr ?_ rfl rfl)
  -- The event may pass the pending ones: they are of other sources, or it tells no edge.
  have passes : edgesOf name input.pending = [] ∨ edgesOf name [event] = [] := by
    by_cases own : event.source = name
    · cases kept : event.retain with
      | false => exact .inr (edgesOf_lossy kept)
      | true => exact .inl (edgesOf_foreign (waits own kept))
    · exact .inr (edgesOf_foreign (by simpa using own))
  rw [Input.line, Input.line, edgesOf_append, edgesOf_cons event extra, edgesOf_cons event,
    edgesOf_append]
  rcases passes with none_pending | none_told
  · simp [none_pending]
  · simp [none_told]

/-- Appending an event is sound. -/
theorem Sound.append (sound : Sound name (event :: extra) input) :
    Sound name extra (input.append event) := by
  unfold Input.append
  by_cases held : input.retained event.source = []
  · rw [if_neg (by simpa using held)]
    by_cases full : input.capacity ≤ input.pending.length
    · rw [if_pos full]
      cases kept : event.retain with
      | false =>
        exact sound.keepOrDrop fun _ kept' => by simp [kept] at kept'
      | true =>
        refine (sound.spill event.source).keepOrDrop fun own _ earlier member => ?_
        have rest := (List.mem_filter.mp member).2
        simpa [own] using rest
    · rw [if_neg full]
      constructor
      · exact sound.known
      · by_cases own : event.source = name
        · exact .inl (own ▸ held)
        · refine sound.exclusive.imp_right fun foreign earlier member => ?_
          rcases List.mem_append.mp member with old | new
          · exact foreign earlier old
          · rw [List.mem_singleton.mp new]
            exact own
      · intro fine
        refine (sound.paired fine).congr ?_ rfl rfl
        have same : input.pending ++ [event] ++ extra = input.pending ++ event :: extra := by simp
        exact congrArg (input.line name) same
  · rw [if_pos held]
    refine sound.keepOrDrop fun own _ => ?_
    exact sound.exclusive.resolve_left (own ▸ held)

/-- Appending events in order is sound. -/
theorem Sound.foldl_append {events : List Event} (sound : Sound name events input) :
    Sound name [] (events.foldl Input.append input) := by
  induction events generalizing input with
  | nil => exact sound
  | cons event rest step => exact step sound.append

end Gizos.Runtime
