import Gizos.Fault.Frame
import Gizos.Runtime.EdgeLine

/-! # Paired button edges

Every step of a poll keeps the line of edges of a button paired, so every run of polls does, as long
as only even numbers of its edges are discarded at once. When a lone final action is discarded
together with a press, the consumer sees two releases in a row.
-/
namespace Gizos.Runtime

open Fault Alternation Input

variable {name other capacity : Nat} {input : Input} {event : Event} {todo : List Event}
  {sources : List (Nat × SourceKind)}

/-! ### The operations of a poll -/

/-- A change of a source that touches neither its level nor its retained edges. -/
theorem Sound.modify {change : Source → Source} {extra : List Event}
    (sound : Sound name extra input) (same : ∀ source, (change source).id = source.id)
    (pressed : ∀ source, (change source).pressed = source.pressed)
    (retained : ∀ source, (change source).retained = source.retained) :
    Sound name extra (input.modify other change) := by
  have held := @Input.retained_modify name other input change same retained
  constructor
  · rw [isSome_find_modify same]
    exact sound.known
  · rw [held]
    exact sound.exclusive
  · intro fine
    refine (sound.paired fine).congr ?_ (level_modify same pressed) rfl
    rw [Input.line, held]
    rfl

section

variable (sound : Sound name [] input)

include sound

theorem Sound.appendLossy (lossy : event.retain = false) : Sound name [] (input.append event) := by
  refine Sound.append ⟨sound.known, sound.exclusive, fun fine =>
    (sound.paired fine).congr ?_ rfl rfl⟩
  rw [Input.line, Input.line, edgesOf_append, edgesOf_append, edgesOf_lossy lossy, edgesOf_nil]

theorem Sound.foldl_appendLossy {events : List Event}
    (lossy : ∀ event ∈ events, event.retain = false) :
    Sound name [] (events.foldl Input.append input) := by
  induction events generalizing input with
  | nil => exact sound
  | cons event rest step =>
    rw [List.forall_mem_cons] at lossy
    exact step (sound.appendLossy lossy.1) lossy.2

theorem Sound.requeue (other : Nat)
    (holds : input.retained other ≠ []) : Sound name [] (input.requeue other) := by
  refine Sound.foldl_append ?_
  constructor
  · refine (isSome_find_modify ?_).trans sound.known
    exact fun _ => rfl
  · by_cases own : name = other
    · subst own
      exact .inl (retained_set sound.known [])
    · rw [retained_set_of_ne own]
      exact sound.exclusive
  · intro fine
    refine (sound.paired fine).congr ?_ (level_modify (fun _ => rfl) fun _ => rfl) rfl
    by_cases own : name = other
    · subst own
      have waits : edgesOf name input.pending = [] :=
        edgesOf_foreign (sound.exclusive.resolve_left holds)
      rw [Input.line, retained_set sound.known, edgesOf_append, edgesOf_events, Input.line,
        edgesOf_append, waits]
      change input.delivered name ++ [] ++ (edgesOf name input.pending ++ _) = _
      simp [waits]
    · have foreign : edgesOf name ((input.retained other).flatMap (RetainedEdge.events other)) =
        [] :=
        edgesOf_foreign fun event member => by
          rw [source_of_events member]
          exact Ne.symm own
      rw [Input.line, retained_set_of_ne own, edgesOf_append, foreign, ← edgesOf_nil,
        ← edgesOf_append]
      rfl

/-- A reading that changes the level of a button: its edge is noted and about to be appended. -/
theorem Sound.turn {pressed : Bool} {pressedAtMs : Nat} {edge : Edge} {extra : List Event}
    (turns : input.level other = !pressed) (level : edge.level = pressed)
    (told : edgesOf other extra = [edge]) (own : ∀ event ∈ extra, event.source = other) :
    Sound name extra ((input.settle other pressed pressedAtMs).noteEdge other edge) := by
  have held : ((input.settle other pressed pressedAtMs).noteEdge other edge).retained name =
      input.retained name := retained_settle pressed pressedAtMs
  have now : ((input.settle other pressed pressedAtMs).noteEdge other edge).level name =
      if name = other then pressed else input.level name :=
    level_settle sound.known pressed pressedAtMs
  have past : ((input.settle other pressed pressedAtMs).noteEdge other edge).history name =
      input.history name ++ (if name = other then [edge] else []) := by
    by_cases mine : name = other
    · simp [Input.history, Input.noteEdge, Input.settle, Input.modify, mine]
    · simp [Input.history, Input.noteEdge, Input.settle, Input.modify, mine, Ne.symm mine]
  refine ⟨(isSome_find_settle pressed pressedAtMs).trans sound.known, ?_, fun fine => ?_⟩
  · rw [held]
    exact sound.exclusive
  · have before := sound.paired fine
    rw [List.append_nil] at before
    change Paired name (input.pending ++ extra) _
    have after : ((input.settle other pressed pressedAtMs).noteEdge other edge).line name
        (input.pending ++ extra) = input.line name input.pending ++ edgesOf name extra := by
      rw [Input.line, held, edgesOf_append, ← List.append_assoc]
      rfl
    by_cases mine : name = other
    · rw [if_pos mine] at now past
      subst mine
      constructor
      · rw [after, told]
        refine before.alternates.snoc ?_
        rw [before.finishes, turns, level, Bool.not_not]
      · rw [after, told, finish_snoc, now, level]
      · rw [after, told, past]
        exact before.ordered.append_right [edge]
    · rw [if_neg mine] at now past
      have foreign : edgesOf name extra = [] := edgesOf_foreign fun event member => by
        rw [own event member]
        exact Ne.symm mine
      refine before.congr ?_ now (past.trans (List.append_nil _))
      rw [after, foreign, List.append_nil]

theorem Sound.settle {pressed : Bool} {pressedAtMs : Nat} (steady : input.level other = pressed) :
    Sound name [] (input.settle other pressed pressedAtMs) := by
  have held := @Input.retained_settle name other input pressed pressedAtMs
  have level := @Input.level_settle name other input sound.known pressed pressedAtMs
  refine ⟨(isSome_find_settle pressed pressedAtMs).trans sound.known, ?_, fun fine => ?_⟩
  · rw [held]
    exact sound.exclusive
  · refine (sound.paired fine).congr ?_ ?_ rfl
    · rw [Input.line, held]
      rfl
    · rw [level]
      split
      · rename_i mine
        rw [mine, steady]
      · rfl

theorem Sound.press (released : input.level other = false)
    (nowMs : Nat) : Sound name [] (input.press other nowMs) := by
  refine Sound.append (Sound.append ?_)
  exact sound.turn released rfl (by simp [edgesOf, Event.edge]) (by simp)

theorem Sound.release (pressed : input.level other = true)
    (pressedAtMs nowMs : Nat) : Sound name [] (input.release other pressedAtMs nowMs) := by
  refine Sound.append (Sound.append ?_)
  exact sound.turn pressed rfl (by simp [edgesOf, Event.edge]) (by simp)

theorem Sound.hold (pressed : input.level other = true)
    (pressedAtMs : Nat) : Sound name [] (input.hold other pressedAtMs) :=
  ((sound.settle pressed).appendLossy rfl).appendLossy rfl

theorem Sound.updateButtonPressed (other : Nat) (isPressed : Bool)
    (nowMs : Nat) : Sound name [] (input.updateButtonPressed other isPressed nowMs) := by
  unfold Input.updateButtonPressed
  cases found : input.find other with
  | none => exact sound
  | some source =>
    have level : input.level other = source.pressed.getD false := by simp [Input.level, found]
    simp only
    split <;> rename_i known <;> rw [known] at level
    · exact sound.press level nowMs
    · exact sound.settle level
    · exact sound.press level nowMs
    · exact sound.hold level source.pressedAtMs
    · exact sound.release level source.pressedAtMs nowMs
    · split
      · exact sound.settle level
      · exact sound

theorem Sound.publishError (other : Nat) : Sound name [] (input.publishError other) := by
  refine Sound.appendLossy ?_ rfl
  have marked : Sound name [] (input.modify other fun source => { source with failed := true }) :=
    sound.modify (fun _ => rfl) (fun _ => rfl) fun _ => rfl
  exact marked.congr rfl rfl rfl rfl rfl

theorem Sound.pollRadioButtonGroup (group : Nat) (pressed : Option Nat) (nowMs : Nat) :
    Sound name [] (input.pollRadioButtonGroup group pressed nowMs) := by
  unfold Input.pollRadioButtonGroup
  generalize input.sources.filter _ = members
  induction members generalizing input with
  | nil => exact sound
  | cons source rest step =>
    refine step ?_
    cases pressed with
    | some pressedId => exact sound.updateButtonPressed source.id _ nowMs
    | none => exact sound.publishError source.id

theorem Sound.pollSource (readings : Readings) (earlier : List Source) (source : Source) :
    Sound name [] (input.pollSource readings earlier source) := by
  unfold Input.pollSource
  cases source.kind with
  | single =>
    cases readings.single source.id with
    | some pressed => exact sound.updateButtonPressed source.id pressed readings.nowMs
    | none => exact sound.publishError source.id
  | push => exact sound.updateButtonPressed source.id _ readings.nowMs
  | radio group =>
    simp only
    split
    · exact sound
    · exact sound.pollRadioButtonGroup group _ readings.nowMs
  | other =>
    refine Sound.foldl_appendLossy (sound.congr (by rfl) (by rfl) (by rfl) (by rfl) (by rfl)) ?_
    intro event member
    rw [List.eq_of_mem_replicate member]

theorem Sound.consumeReports (reports : List Nat) :
    Sound name [] (input.consumeReports reports) := by
  unfold Input.consumeReports
  induction reports generalizing input with
  | nil => exact sound
  | cons report rest step =>
    have marked : Sound name [] { input with dirty := true } := sound.congr rfl rfl rfl rfl rfl
    exact step (marked.appendLossy rfl)

end

/-! ### Sending -/

/-- What holds of a button while the events `todo` are being sent; after a refusal edges are
retained that precede them. -/
structure Sending (name : Nat) (full : Bool) (todo : List Event) (input : Input) : Prop where
  known : (input.find name).isSome
  exclusive : full = false → input.retained name = [] ∨ ∀ event ∈ todo, event.source ≠ name
  paired : name ∉ input.unpaired → Paired name todo input

theorem Sending.keepOrDrop {full : Bool} (sending : Sending name full (event :: todo) input) :
    Sending name true todo (input.keepOrDrop event) where
  known := (@Input.keepOrDrop_frame name input event).2.2.2.2.trans sending.known
  exclusive impossible := by simp at impossible
  paired fine := Paired.keepOrDrop sending.known fine (sending.paired (unpaired_of_keepOrDrop fine))

theorem Sending.send (sending : Sending name false (event :: todo) input) :
    Sending name false todo { input with sent := input.sent ++ [event] } where
  known := sending.known
  exclusive _ := (sending.exclusive rfl).imp_right fun foreign =>
    (List.forall_mem_cons.mp foreign).2
  paired fine := by
    refine (sending.paired fine).congr ?_ rfl rfl
    rw [Input.line, Input.line, edgesOf_cons event todo, Input.delivered, edgesOf_append]
    rcases sending.exclusive rfl with none_retained | foreign
    · have held : { input with sent := input.sent ++ [event] }.retained name = [] := none_retained
      rw [held, none_retained]
      simp [owed, Input.delivered]
    · have none_told : edgesOf name [event] = [] :=
        edgesOf_foreign (by simpa using (List.forall_mem_cons.mp foreign).1)
      rw [none_told]
      simp [Input.delivered]
      rfl

theorem ensures_enqueueEvents (full : Bool) (todo : List Event) (input : Input)
    (sending : Sending name full todo input) :
    Ensures (fun _ : Bool => True) (enqueueEvents full todo)
      (fun _ after => Sending name true [] after) (fun _ _ => False) (fun _ => False) input := by
  induction todo generalizing full input with
  | nil =>
    cases full <;>
      exact .pure ⟨sending.known, fun impossible => by simp at impossible, sending.paired⟩
  | cons event rest step =>
    cases full with
    | true => exact .bind (.update (step true _ sending.keepOrDrop))
    | false =>
      refine .bind (.call ?_ (fun _ _ _ _ reply => nomatch reply) fun _ _ _ reply => nomatch reply)
      intro taken value after _ reply
      cases reply
      cases taken with
      | true => exact step false _ sending.send
      | false => exact .bind (.update (step true _ sending.keepOrDrop))

theorem keeps_enqueuePendingEvents : Keeps (Sound name []) enqueuePendingEvents := by
  intro answers time input sound
  have sending : Sending name false input.pending input :=
    ⟨sound.known, fun _ => sound.exclusive, fun fine => by
      simpa only [List.append_nil] using sound.paired fine⟩
  have ensured : Always (fun _ : Bool => True) enqueuePendingEvents (Sound name []) input := by
    refine .bind (.read (.bind ?_))
    refine (ensures_enqueueEvents false input.pending input sending).mono (fun _ after sent => ?_)
      (fun _ _ impossible => impossible.elim) fun _ impossible => impossible.elim
    refine .update ⟨sent.known, .inr (by simp), fun fine => ?_⟩
    exact (sent.paired fine).congr rfl rfl rfl
  exact ensured.reached ⟨answers, fun _ => trivial, time, rfl⟩

theorem keeps_publishSnapshot : Keeps (Sound name []) publishSnapshot := by
  intro answers time input sound
  have published : (publishSnapshot answers time input).state =
      if answers time then { input with dirty := false } else input := by
    unfold publishSnapshot Program.call
    cases answers time <;> rfl
  rw [published]
  split
  · exact sound.congr rfl rfl rfl rfl rfl
  · exact sound

theorem keeps_publishPendingEvents : Keeps (Sound name []) publishPendingEvents := by
  refine .bind (.read _) fun input => ?_
  split
  · exact .pure ()
  · split
    · refine .bind keeps_publishSnapshot fun published => ?_
      cases published with
      | true => exact keeps_enqueuePendingEvents
      | false => exact .pure ()
    · exact keeps_enqueuePendingEvents

theorem keeps_requeueSources (names : List Nat) : Keeps (Sound name []) (requeueSources names) := by
  induction names with
  | nil => exact .pure false
  | cons other rest step =>
    intro answers time input sound
    by_cases requeued : input.requeues other
    · have holds : input.retained other ≠ [] := by
        have both := Bool.and_eq_true_iff.mp requeued
        simpa using both.1
      have taken : requeueSources (other :: rest) answers time input =
          (do let _ ← requeueSources rest; pure true : Routine Bool) answers time
            (input.requeue other) := by
        change (if input.requeues other then _ else _ : Routine Bool) answers time input = _
        rw [if_pos requeued]
        rfl
      rw [taken]
      exact Keeps.bind step (fun _ => .pure true) answers time _ (sound.requeue other holds)
    · have skipped : requeueSources (other :: rest) answers time input =
          requeueSources rest answers time input := by
        change (if input.requeues other then _ else _ : Routine Bool) answers time input = _
        rw [if_neg requeued]
      rw [skipped]
      exact step answers time input sound

theorem keeps_consumePushButtonEdges (pushed : List (Nat × Bool × Nat)) :
    Keeps (Sound name []) (consumePushButtonEdges pushed) := by
  induction pushed with
  | nil => exact .pure ()
  | cons edge rest step =>
    obtain ⟨source, down, timestampMs⟩ := edge
    refine .bind (.read _) fun input => ?_
    split
    · refine .bind (.update fun input sound => ?_) fun _ =>
        .bind keeps_publishPendingEvents fun _ => step
      exact (sound.updateButtonPressed source down timestampMs).modify (fun _ => rfl) (fun _ => rfl)
        fun _ => rfl
    · exact step

theorem keeps_pollSources (readings : Readings) (earlier sources : List Source) :
    Keeps (Sound name []) (pollSources readings earlier sources) := by
  induction sources generalizing earlier with
  | nil => exact .pure ()
  | cons source rest step =>
    refine .bind (.read _) fun input => ?_
    split
    · refine .bind (.update fun input sound => ?_) fun _ => step _
      exact sound.modify (fun _ => rfl) (fun _ => rfl) fun _ => rfl
    · split
      · refine .bind (.update fun input sound => ?_) fun _ =>
          .bind keeps_publishPendingEvents fun _ => step _
        exact sound.pollSource readings earlier source
      · exact step _

/-- One poll, whatever it reads and however the queue and the publication answer. -/
theorem keeps_inputPollOnce (readings : Readings) :
    Keeps (Sound name []) (inputPollOnce readings) := by
  have rest : Keeps (Sound name []) (do
      consumePushButtonEdges readings.pushed
      Program.update (·.consumeReports readings.reports)
      let sources ← Program.read Input.sources
      pollSources readings [] sources
      let input ← Program.read id
      if input.dirty then do
        let _ ← publishSnapshot : Routine Unit) := by
    refine .bind (keeps_consumePushButtonEdges _) fun _ => .bind (.update fun input sound => ?_)
      fun _ => .bind (.read _) fun sources => .bind (keeps_pollSources _ _ _) fun _ =>
        .bind (.read _) fun input => ?_
    · exact sound.consumeReports readings.reports
    · split
      · exact .bind keeps_publishSnapshot fun _ => .pure ()
      · exact .pure ()
  refine .bind (.bind (.read _) keeps_requeueSources) fun requeued => ?_
  cases requeued with
  | true => exact .bind keeps_publishPendingEvents fun _ => rest
  | false => exact rest

/-! ### Whole runs -/

theorem sound_start
    (button : name ∈ sources.map Prod.fst) : Sound name [] (Input.start capacity sources) := by
  obtain ⟨source, member, named⟩ := List.mem_map.mp button
  have known : ((Input.start capacity sources).find name).isSome := by
    unfold Input.find Input.start
    rw [List.find?_isSome]
    exact ⟨_, List.mem_map_of_mem member, by simp [named]⟩
  have fresh : ∀ source, (Input.start capacity sources).find name = some source →
      source.pressed = none ∧ source.retained = [] := by
    intro source found
    obtain ⟨origin, -, rfl⟩ := List.mem_map.mp (List.mem_of_find?_eq_some found)
    exact ⟨rfl, rfl⟩
  obtain ⟨found, finds⟩ := Option.isSome_iff_exists.mp known
  obtain ⟨unread, empty⟩ := fresh found finds
  have level : (Input.start capacity sources).level name = false := by
    simp [Input.level, finds, unread]
  have retained : (Input.start capacity sources).retained name = [] := by
    simp [Input.retained, finds, empty]
  refine ⟨known, .inl retained, fun _ => ?_⟩
  have line : (Input.start capacity sources).line name [] = [] := by
    rw [Input.line, retained]
    rfl
  constructor
  · exact line ▸ trivial
  · rw [level]
    exact line ▸ rfl
  · exact line ▸ List.nil_sublist _

theorem Polled.sound {final : Input}
    (button : name ∈ sources.map Prod.fst) (run : Polled (Input.start capacity sources) final) :
    Sound name [] final := by
  induction run with
  | start => exact sound_start button
  | poll readings _ reaches sound =>
    obtain ⟨answers, -, time, rfl⟩ := reaches
    exact keeps_inputPollOnce readings answers time _ sound

/-- As long as no odd number of edges of a button is discarded at once, its delivered edges
alternate in the order in which they happened, and when nothing of the button waits the last one
tells its level. -/
theorem button_edges_paired {final : Input} (button : name ∈ sources.map Prod.fst)
    (run : Polled (Input.start capacity sources) final) (even : name ∉ final.unpaired) :
    Alternating Edge.level false (final.delivered name) ∧
      (final.delivered name).Sublist (final.history name) ∧
      ((∀ event ∈ final.pending, event.source ≠ name) → final.retained name = [] →
        finish Edge.level false (final.delivered name) = final.level name) := by
  have paired := (run.sound button).paired even
  rw [List.append_nil] at paired
  have line : final.line name final.pending =
      final.delivered name ++ (owed (final.retained name) ++ edgesOf name final.pending) :=
    List.append_assoc _ _ _
  refine ⟨?_, ?_, fun drained empty => ?_⟩
  · have alternates := paired.alternates
    rw [line, alternating_append] at alternates
    exact alternates.1
  · have ordered := paired.ordered
    rw [line] at ordered
    exact (List.sublist_append_left _ _).trans ordered
  · have finishes := paired.finishes
    rw [line, empty, edgesOf_foreign drained] at finishes
    simpa [owed] using finishes

/-- A poll of the single button 7. -/
def pollSeven (nowMs : Nat) (pressed : Bool) : Readings where
  nowMs := nowMs
  single _ := some pressed

/-- One poll of button 7, with the answers of the queue and of the publication in order; later
calls succeed. -/
def afterPoll (nowMs : Nat) (pressed : Bool) (answers : List Bool) (before : Input) : Input :=
  (inputPollOnce (pollSeven nowMs pressed) (fun index => answers.getD index true) 0 before).state

theorem Polled.afterPoll {start before : Input} (nowMs : Nat) (pressed : Bool) (answers : List Bool)
    (earlier : Polled start before) : Polled start
      (Runtime.afterPoll nowMs pressed answers before) :=
  .poll (pollSeven nowMs pressed) earlier ⟨_, fun _ => trivial, 0, rfl⟩

/-- Button 7 before the first poll. -/
def buttonSeven : Input := Input.start 4 [(7, .single)]

/-- The queue takes the release of a press but not its final action, then refuses the next press and
release: the press and the lone action are discarded together, and the consumer sees two releases in
a row. -/
theorem button_edges_unpaired : ∃ final, Polled buttonSeven final ∧
    final.delivered 7 = [.press 1, .release 1 2, .release 3 4] ∧
    final.history 7 = [.press 1, .release 1 2, .press 3, .release 3 4] ∧
    final.pending = [] ∧ final.retained 7 = [] ∧
    ¬Alternating Edge.level false (final.delivered 7) := by
  have run : Polled buttonSeven _ := (((Polled.start.afterPoll 1 true []).afterPoll 2 false
    [true, true, false]).afterPoll 3 true [true, false]).afterPoll 4 false [true, false]
  have drained := run.afterPoll 5 false []
  refine ⟨_, drained, ?_⟩
  decide +kernel

/-- The queue refuses a press and its release of button 7 until the next press discards both, and
takes that press and its release. -/
@[irreducible] def retriedSeven : Input :=
  afterPoll 4 false [] (afterPoll 3 true [true, false] (afterPoll 2 false [true, false]
    (afterPoll 1 true [true, false] buttonSeven)))

theorem button_edges_paired_retry :
    retriedSeven.history 7 = [.press 1, .release 1 2, .press 3, .release 3 4] ∧
      retriedSeven.delivered 7 = [.press 3, .release 3 4] ∧
      Alternating Edge.level false (retriedSeven.delivered 7) ∧
      (retriedSeven.delivered 7).Sublist (retriedSeven.history 7) ∧
      finish Edge.level false (retriedSeven.delivered 7) = retriedSeven.level 7 := by
  have even : 7 ∉ retriedSeven.unpaired := by decide +kernel
  have drained : ∀ event ∈ retriedSeven.pending, event.source ≠ 7 := by decide +kernel
  have empty : retriedSeven.retained 7 = [] := by decide +kernel
  have button : 7 ∈ [(7, SourceKind.single)].map Prod.fst := by decide
  have run : Polled buttonSeven retriedSeven := by
    unfold retriedSeven
    exact (((Polled.start.afterPoll 1 true [true, false]).afterPoll 2 false
      [true, false]).afterPoll 3 true [true, false]).afterPoll 4 false []
  have paired := button_edges_paired button run even
  exact ⟨by decide +kernel, by decide +kernel, paired.1, paired.2.1, paired.2.2 drained empty⟩

end Gizos.Runtime
