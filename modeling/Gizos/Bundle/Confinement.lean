import Gizos.Bundle.Cursor

/-! # What an install touches

The paths an install may open and make directories for, and the invariants of the storage it
keeps: those that its files, its application writer and the clearing of its data keep, at every
point where it can be cut. The hooks of the tar state machine do not move it: only the header of an
entry sets how much is to come, and a started entry stands at the front of its contents.
-/
namespace Gizos.Bundle

open Fault Pal InstallOptions

variable {path : Bytes} {state : TarState}

/-- The first path is the second one, or a directory it is in. -/
def Above (path target : Bytes) : Prop := path = target ∨ ∃ rest, target = path ++ slash :: rest

namespace InstallOptions

/-- A path inside the root of an install. -/
def Inside (options : InstallOptions) (path : Bytes) : Prop :=
  ∃ relative, pathIsSafeRelative relative = true ∧ path = joined options.dataRoot relative

/-- The files an archive may bring. -/
inductive Fills (options : InstallOptions) : Bytes → Prop where
  /-- Files inside the root. -/
  | inside (path : Bytes) (inside : options.Inside path) : Fills options path
  /-- What is unpacked at a path inside the root. -/
  | unpacked (packed destination : Bytes) (file : Bytes × Bytes)
    (inside : options.Inside destination)
    (extracted : file ∈ (options.pixa.extract packed destination).1) : Fills options file.1

/-- The files an install may write. -/
inductive MayWrite (options : InstallOptions) : Bytes → Prop where
  /-- The file that names the installed data. -/
  | checksum : MayWrite options options.installedChecksumPath
  /-- The file that names the installed version. -/
  | version (path version : Bytes) (noted : options.versionFile = some (path, version)) :
    MayWrite options path
  /-- What the archive brings. -/
  | fills (path : Bytes) (fills : options.Fills path) : MayWrite options path

/-- The paths an install may open or make a directory for: its files, and what is above those of
the archive. -/
def MayAsk (options : InstallOptions) (path : Bytes) : Prop :=
  options.MayWrite path ∨ ∃ target, options.Fills target ∧ Above path target

/-- What an install is given keeps an invariant of the storage. -/
structure Within (options : InstallOptions) (invariant : Storage → Prop) : Prop where
  asks : ∀ path store, options.MayAsk path → invariant store → invariant (Storage.ask path store)
  /-- Files may change. -/
  files : ∀ path content store, options.MayWrite path → invariant store →
    invariant (Storage.withFile path content store)
  writer : ∀ writer, options.appWriter = some writer → writer.Keeps invariant
  clear : ∀ clearData, options.clearData = some clearData → Keeps invariant clearData

end InstallOptions

variable {options : InstallOptions} {invariant : Storage → Prop} {α : Type}

/-- The directory before the last slash of a path is above it. -/
theorem above_pathParentDir (nested : pathParentDir path ≠ []) :
    Above (pathParentDir path) path := by
  have parts := List.takeWhile_append_dropWhile (p := fun byte : UInt8 => decide (byte ≠ slash))
    (l := path.reverse)
  unfold pathParentDir at nested ⊢
  cases behind : path.reverse.dropWhile (fun byte => decide (byte ≠ slash)) with
  | nil =>
    rw [behind] at nested
    exact absurd rfl nested
  | cons head rest =>
    have stops := List.head_dropWhile_not (fun byte : UInt8 => decide (byte ≠ slash))
      (l := path.reverse) (by rw [behind]; exact List.cons_ne_nil _ _)
    simp only [behind, List.head_cons] at stops
    have separator : head = slash := by simpa using stops
    rw [behind, separator] at parts
    have whole := congrArg List.reverse parts
    refine .inr ⟨(path.reverse.takeWhile fun byte => decide (byte ≠ slash)).reverse, ?_⟩
    simpa using whole.symm

section Files

variable (within : options.Within invariant)

include within

theorem keeps_openFile (may : options.MayWrite path) : Keeps invariant (fsOpenTruncate path) :=
  .bind (.update fun store => within.asks path store (.inl may)) fun _ =>
    keeps_act fun store => within.files path _ store may

theorem keeps_writeFile (may : options.MayWrite path) (data : Bytes) :
    Keeps invariant (fsWriteFile path data) :=
  .bind (keeps_openFile within may) fun _ => keeps_closingAfter <|
    .bind (keeps_fsWriteAll (fun content store => within.files path content store may) _ data)
      fun _ => keeps_probe _

/-- Making a directory and those on the way to it asks for nothing but them. -/
theorem keeps_makeDirAll {target : Bytes} (may : options.Fills target) (above : Above path target) :
    Keeps invariant (makeDirAll path) := by
  have asked : ∀ part, Above part path → Keeps invariant (fsMakeDir part) := by
    intro part higher
    refine .bind (.update fun store => within.asks part store (.inr ⟨target, may, ?_⟩))
      fun _ => keeps_probe _
    rcases higher with rfl | ⟨rest, rfl⟩
    · exact above
    · rcases above with rfl | ⟨further, rfl⟩
      · exact .inr ⟨rest, rfl⟩
      · exact .inr ⟨rest ++ slash :: further, by simp⟩
  have each : ∀ places : List Nat, (∀ index ∈ places, path[index]? = some slash) →
      Keeps invariant (places.forM fun index => makeParent (path.take index)) := by
    intro places slashes
    induction places with
    | nil => exact .pure _
    | cons index rest ih =>
      have here := slashes index List.mem_cons_self
      obtain ⟨inside, byte⟩ := List.getElem?_eq_some_iff.mp here
      have higher : Above (path.take index) path := by
        refine .inr ⟨path.drop (index + 1), ?_⟩
        rw [← byte, List.getElem_cons_drop, List.take_append_drop]
      refine .bind (.recovering (asked _ higher) fun code => ?_) fun _ =>
        ih fun other member => slashes other (List.mem_cons_of_mem _ member)
      split
      · exact .pure _
      · exact .fail _
  refine .bind (.require _ _) fun _ => .bind (.require _ _) fun _ =>
    .bind (each _ fun index member => ?_) fun _ => asked path (.inl rfl)
  have chosen := (List.mem_filter.mp member).2
  simp only [Bool.and_eq_true, decide_eq_true_eq] at chosen
  exact chosen.2

theorem keeps_ensureParentDirs (may : options.Fills path) :
    Keeps invariant (ensureParentDirs path) := by
  unfold ensureParentDirs
  dsimp only
  split
  · exact .pure _
  · rename_i nested
    exact .recovering (keeps_makeDirAll within may (above_pathParentDir nested)) fun _ => .fail _

theorem keeps_extractFiles (written : List (Bytes × Bytes))
    (may : ∀ file ∈ written, options.Fills file.1) :
    Keeps invariant (extractFiles written) := by
  induction written with
  | nil => exact .pure _
  | cons file rest ih =>
    have here := may file List.mem_cons_self
    exact .bind (keeps_ensureParentDirs within here) fun _ =>
      .bind (keeps_writeFile within (.fills _ here) _) fun _ =>
        ih fun other member => may other (List.mem_cons_of_mem _ member)

end Files

theorem keeps_mapFs {σ : Type} {kept : σ → Prop} {body : Routine σ α} (keeps : Keeps kept body) :
    Keeps kept (mapFs body) :=
  .recovering keeps fun _ => .fail _

theorem leaves_readInstalledChecksum (path : Bytes) : Leaves id (readInstalledChecksum path) := by
  refine .bind (.require _ _) fun _ =>
    .bind (leaves_lookup id _).attempt fun found => ?_
  cases found with
  | ok content =>
    refine Leaves.bind (Leaves.bind (leaves_probe id) fun _ => Leaves.pure _).attempt
      fun content => .bind (leaves_probe id).ignoring fun _ => ?_
    cases content with
    | ok content => exact .pure _
    | error code => exact .fail _
  | error code =>
    dsimp only
    split
    · exact .pure _
    · exact .fail _

namespace InstallOptions

variable {pre : TarState → Prop} {cursor : Bytes × Nat × Nat × Nat × Bool × Bool} {entry : Entry}

section Places

variable (options) (invariant) (cursor)

/-- What is unpacked where the entry at hand goes may be written. -/
def Aimed (state : TarState) : Prop :=
  ∀ packed, Keeps invariant (options.pixa.unpack packed state.dstPath)

/-- The installer's variables name only what may be written, and the state machine stands at some
place of the archive. -/
structure Placed (state : TarState) : Prop where
  outFile : ∀ path, state.outFile = some path → ∀ content store, invariant store →
    invariant (Storage.withFile path content store)
  destination : state.output = .fs → options.Aimed invariant state
  output : state.kind = .file → state.output = .none → options.Aimed invariant state
  stands : state.cursor = cursor

/-- The variables are placed, wherever the state machine stands. -/
def Ready (state : TarState) : Prop := options.Placed invariant state.cursor state

/-- The entry at hand has somewhere to go. -/
def Directed (state : TarState) : Prop :=
  options.Placed invariant cursor state ∧ (state.output = .none → options.Aimed invariant state)

/-- Between entries: no contents are expected. -/
def Entering (state : TarState) : Prop :=
  options.Placed invariant cursor state ∧ state.kind = .header

/-- The padding of an entry comes next, if there is any. -/
def Finished (state : TarState) : Prop :=
  options.Placed invariant cursor state ∧ state.kind = kindAfter state.paddingRemaining

/-- The contents of an entry come next, if there are any. -/
def Started (entry : Entry) (state : TarState) : Prop :=
  options.Placed invariant cursor state ∧ state.kind = kindOf entry

end Places

/-- What is about the entry at hand and about where the state machine stands. -/
def Stable (pre : TarState → Prop) : Prop :=
  ∀ {before after : TarState}, (after.outFile, after.output, after.dstPath, after.kind,
    after.cursor) = (before.outFile, before.output, before.dstPath, before.kind, before.cursor) →
    pre before → pre after

theorem Placed.ready (placed : options.Placed invariant cursor state) :
    options.Ready invariant state := by
  rw [Ready, placed.stands]
  exact placed

theorem stable_placed : Stable (options.Placed invariant cursor) := by
  intro before after same placed
  simp only [Prod.mk.injEq] at same
  obtain ⟨outFile, output, dstPath, kind, stands⟩ := same
  refine ⟨fun path opened => placed.outFile path (outFile ▸ opened), fun files => ?_,
    fun file none => ?_, stands.trans placed.stands⟩
  · rw [Aimed, dstPath]
    exact placed.destination (output ▸ files)
  · rw [Aimed, dstPath]
    exact placed.output (kind ▸ file) (output ▸ none)

theorem stable_entering : Stable (options.Entering invariant cursor) := fun same entering =>
  ⟨stable_placed same entering.1, (congrArg (fun view => view.2.2.2.1) same).trans entering.2⟩

theorem stable_directed : Stable (options.Directed invariant cursor) := by
  intro before after same directed
  refine ⟨stable_placed same directed.1, fun none => ?_⟩
  simp only [Prod.mk.injEq] at same
  rw [Aimed, same.2.2.1]
  exact directed.2 (same.2.1 ▸ none)

theorem guards_finishChecksumEntry (stable : Stable pre) :
    Guards invariant pre options.finishChecksumEntry fun _ => pre := by
  refine .bindLocals fun state _ => .bindRequire fun _ =>
    .bind (guards_stable fun _ => stable rfl) fun _ => ?_
  split
  · exact guards_assign fun _ => stable rfl
  · exact .bind (guards_onStore (leaves_readInstalledChecksum _).keepsAny) fun _ =>
      guards_assign fun _ => stable rfl

theorem guards_verifyManifestEntry (stable : Stable pre) :
    Guards invariant pre options.verifyManifestEntry fun _ => pre := by
  unfold verifyManifestEntry
  split
  · exact .pure fun _ required => required
  refine .bindLocals fun state _ => ?_
  split
  · exact .fail _
  refine .bindConclude fun _ _ => .bindLocals fun state _ => ?_
  exact .onlyIf fun _ => .bindRequire fun _ => guards_assign fun _ => stable rfl

theorem guards_hashDataEntry (stable : Stable pre) (entry : Entry) :
    Guards invariant pre (hashDataEntry entry) fun _ => pre := by
  refine .bindLocals fun state _ => ?_
  split
  · refine .bindRequire fun _ => .bindRequire fun _ =>
      .bind (guards_stable fun _ => stable rfl) fun _ => ?_
    split <;> exact .bindRequire fun _ => guards_assign fun _ => stable rfl
  · exact .pure fun _ => id

theorem finished_afterContent (placed : options.Placed invariant cursor state) :
    options.Finished invariant cursor (afterContent state) := by
  refine ⟨⟨placed.outFile, placed.destination, fun file => ?_, placed.stands⟩, rfl⟩
  unfold afterContent at file
  split at file <;> cases file

section

variable (within : options.Within invariant)

include within

/-- Clearing the data changes nothing about the entry at hand. -/
theorem guards_ensureDataCleared (stable : Stable pre) :
    Guards invariant pre options.ensureDataCleared fun _ => pre := by
  refine .bindLocals fun state _ => ?_
  split
  · exact .pure fun _ => id
  · refine .bind (guards_onStore ?_) fun _ => guards_assign fun _ => stable rfl
    cases cleared : options.clearData with
    | none => exact .pure _
    | some clearData => exact within.clear clearData cleared

theorem guards_releaseEntryBuffers :
    Guards invariant (fun _ => True) options.releaseEntryBuffers fun _ _ => True := by
  refine .bindLocals fun state _ => ?_
  have aborted : Guards invariant (fun _ => True) (options.abortApp state) fun _ _ => True := by
    unfold abortApp
    split
    · rename_i writer _ chosen
      exact .bind (guards_onStore (within.writer writer chosen).abort) fun _ =>
        guards_assign fun _ _ => trivial
    · exact .pure fun _ _ => trivial
  have closed : Guards invariant (fun _ => True) (closeOutFile state) fun _ _ => True := by
    unfold closeOutFile
    split
    · exact .ignoring guards_probe
    · exact .pure fun _ _ => trivial
  exact .bind aborted fun _ => .bind closed fun _ => guards_assign fun _ _ => trivial

theorem guards_giveUp {post : α → TarState → Prop}
    (code : Int) : Guards invariant (fun _ => True) (options.giveUp code) post :=
  .bind (guards_releaseEntryBuffers within) fun _ => .fail _

theorem guards_finishAppEntry (entry : Entry) :
    Guards invariant (options.Placed invariant cursor) (options.finishAppEntry entry)
      fun _ => options.Finished invariant cursor := by
  unfold finishAppEntry
  split
  · exact .fail _
  · rename_i writer chosen
    have kept := within.writer writer chosen
    exact .withCleanup (.recovering (guards_onStore (kept.finish entry)) fun _ =>
      .bind (guards_onStore kept.abort) fun _ => .fail _)
      (fun _ => guards_assign fun _ placed => finished_afterContent (stable_placed (by rfl) placed))
      (guards_assign fun _ _ => trivial)

omit within in
/-- Packed contents are unpacked at the destination of the entry. -/
theorem guards_finishFile (aimed : options.Aimed invariant state) :
    Guards invariant (options.Placed invariant cursor) (options.finishFile state)
      fun _ => options.Placed invariant cursor := by
  unfold finishFile
  split
  · exact .recovering (guards_onStore (.bind (keeps_probe _) fun _ => aimed _)) fun _ => .fail _
  · split
    · refine .bind (guards_mapFs guards_probe) fun _ =>
        .withCleanup (guards_mapFs guards_probe) (fun _ => ?_) (guards_assign fun _ _ => trivial)
      exact guards_assign fun _ placed => { placed with outFile := nofun }
    · exact .pure fun _ => id

theorem guards_finishFileEntry :
    Guards invariant (options.Directed invariant cursor) options.finishFileEntry
      fun _ => options.Finished invariant cursor := by
  refine .bind (guards_stable fun state directed => ?_) fun _ =>
    .bindLocals fun state directed => ?_
  · split
    · exact stable_directed (by rfl) directed
    · exact directed
  have finished : options.Aimed invariant state →
      Guards invariant (options.Placed invariant cursor) (do
        options.verifyManifestEntry.recovering options.giveUp
        (options.finishFile state).withCleanup
          (assign fun state => afterContent { state with pixaData := [] }))
        fun _ => options.Finished invariant cursor := by
    intro aimed
    refine .bind (.recovering (guards_verifyManifestEntry stable_placed) fun _ =>
      guards_giveUp within _) fun _ => ?_
    exact .withCleanup (guards_finishFile aimed)
      (fun _ => guards_assign fun _ placed => finished_afterContent (stable_placed (by rfl) placed))
      (guards_assign fun _ _ => trivial)
  have relaxed : ∀ {body : InstallRoutine Unit}, Guards invariant
      (options.Placed invariant cursor) body (fun _ => options.Finished invariant cursor) →
      Guards invariant (options.Directed invariant cursor) body
        fun _ => options.Finished invariant cursor := fun guarded =>
    guarded.mono (fun _ directed => directed.1) fun _ _ placed => placed
  split
  · exact relaxed (.withCleanup (guards_finishChecksumEntry stable_placed)
      (fun _ => guards_assign fun _ placed => finished_afterContent placed)
      (guards_assign fun _ _ => trivial))
  · exact relaxed (guards_finishAppEntry within _)
  · exact guards_assign fun _ directed => finished_afterContent directed.1
  · rename_i files
    exact relaxed (finished (directed.1.destination files))
  · rename_i nowhere
    exact relaxed (finished (directed.2 nowhere))

section Starting

variable (padded : cursor.2.2.1 = tarPadding entry.size)
  (plain : entry.kind = .dir → entry.size = 0)

include padded

theorem guards_startContent :
    Guards invariant (options.Directed invariant cursor) (options.startContent entry)
      fun _ => options.Started invariant cursor entry := by
  unfold startContent
  split
  · rename_i empty
    refine (guards_finishFileEntry within).mono (fun _ => id) fun _ state ended => ?_
    have left : state.paddingRemaining = tarPadding entry.size :=
      (congrArg (fun cursor => cursor.2.2.1) ended.1.stands).trans padded
    refine ⟨ended.1, ?_⟩
    rw [ended.2, left, kindOf, empty]
    rfl
  · rename_i filled
    exact guards_assign fun _ directed =>
      ⟨{ directed.1 with output := fun _ => directed.2 }, (if_neg filled).symm⟩

include plain

theorem guards_startInstalled (relative : Bytes) :
    Guards invariant (options.Entering invariant cursor) (options.startInstalled entry relative)
      fun _ => options.Started invariant cursor entry := by
  refine .bindConclude fun path made => ?_
  obtain ⟨safe, rfl⟩ := pathJoin_ok made
  have inside : options.Inside (joined options.dataRoot relative) := ⟨relative, safe, rfl⟩
  have aimed : ∀ state : TarState, state.dstPath = joined options.dataRoot relative →
      options.Aimed invariant state := fun state aim packed => by
    rw [aim]
    exact .bind (keeps_extractFiles within _ fun file extracted =>
      .unpacked packed _ file inside extracted) fun _ => .require _ _
  have aiming : Guards invariant (options.Entering invariant cursor)
      (assign fun state => { state with dstPath := joined options.dataRoot relative })
      fun _ state => options.Entering invariant cursor state ∧
        state.dstPath = joined options.dataRoot relative :=
    guards_assign fun _ entering => ⟨⟨⟨entering.1.outFile, fun _ => aimed _ rfl,
      fun _ _ => aimed _ rfl, entering.1.stands⟩, entering.2⟩, rfl⟩
  refine .bind aiming fun _ => ?_
  cases directory : entry.kind with
  | dir =>
    refine .bind (guards_mapFs (guards_onStore (keeps_makeDirAll within
      (.inside _ inside) (.inl rfl)))) fun _ => ?_
    exact guards_assign fun _ entering => ⟨{ entering.1.1 with output := nofun },
      (if_pos (plain directory)).symm⟩
  | file =>
    have directed : Guards invariant
        (fun state => options.Entering invariant cursor state ∧
          state.dstPath = joined options.dataRoot relative)
        (assign fun state => { state with output := .fs })
        fun _ => options.Directed invariant cursor :=
      guards_assign fun state entering =>
        ⟨⟨entering.1.1.outFile, fun _ => aimed _ entering.2, nofun, entering.1.1.stands⟩, nofun⟩
    have opened : Guards invariant (options.Directed invariant cursor)
        (openOutFile entry (joined options.dataRoot relative))
        fun _ => options.Directed invariant cursor := by
      have may := MayWrite.fills _ (.inside _ inside)
      unfold openOutFile
      split
      · exact .pure fun _ directed => directed
      · refine .bind (guards_mapFs (guards_onStore (keeps_openFile within may))) fun _ =>
          guards_assign fun _ directed => ⟨{ directed.1 with outFile := ?_ }, directed.2⟩
        rintro _ ⟨⟩ content store
        exact within.files _ content store may
    exact .bind directed fun _ =>
      .bind (guards_onStore (keeps_ensureParentDirs within (.inside _ inside))) fun _ =>
      .bind opened fun _ => guards_startContent within padded

theorem guards_startData :
    Guards invariant (options.Entering invariant cursor) (options.startData entry)
      fun _ => options.Started invariant cursor entry := by
  refine .bindLocals fun state _ => .bindRequire fun _ => ?_
  split
  · refine .bind (guards_ensureDataCleared within stable_entering) fun _ => ?_
    dsimp only
    split
    · exact .bindRequire fun directory => guards_assign fun _ entering =>
        ⟨⟨entering.1.outFile, by simp, by simp, entering.1.stands⟩, (if_pos (plain directory)).symm⟩
    · exact .bindRequire fun _ => .bind (guards_stable fun _ => stable_entering rfl) fun _ =>
        guards_startInstalled within padded plain _
  · exact guards_assign fun _ entering => ⟨⟨entering.1.outFile, by simp, by simp,
      entering.1.stands⟩, rfl⟩

theorem guards_startApp :
    Guards invariant (options.Entering invariant cursor) (options.startApp entry)
      fun _ => options.Started invariant cursor entry := by
  refine .bindLocals fun state _ => .bindRequire fun _ => ?_
  split
  · rename_i directory
    exact guards_assign fun _ entering =>
      ⟨⟨entering.1.outFile, by simp, by simp, entering.1.stands⟩, (if_pos (plain directory)).symm⟩
  refine .bindRequire fun _ => .bind (guards_stable fun _ => stable_entering rfl) fun _ => ?_
  split
  · exact guards_assign fun _ entering => ⟨⟨entering.1.outFile, by simp, by simp,
      entering.1.stands⟩, rfl⟩
  split
  · exact .fail _
  · rename_i writer chosen
    have directed : Guards invariant (options.Entering invariant cursor)
        (assign fun state => { state with output := .app })
        fun _ => options.Directed invariant cursor :=
      guards_assign fun _ entering => ⟨⟨entering.1.outFile, by simp, by simp,
        entering.1.stands⟩, by simp⟩
    exact .bind directed fun _ =>
      .bind (guards_onStore ((within.writer writer chosen).start entry)) fun _ =>
      .bind (guards_stable fun _ => stable_directed rfl) fun _ => guards_startContent within padded

/-- A started entry stands at the front of its contents, or of what comes after it. -/
theorem guards_startEntry :
    Guards invariant (fun state => state.kind = .header ∧ (enterEntry entry state).cursor = cursor)
      (options.startEntry entry) fun _ => options.Started invariant cursor entry := by
  have entered : Guards invariant
      (fun state => state.kind = .header ∧ (enterEntry entry state).cursor = cursor)
      (assign (enterEntry entry)) fun _ => options.Entering invariant cursor :=
    guards_assign fun _ begun =>
      ⟨⟨nofun, nofun, fun file => (nomatch begun.1.symm.trans file), begun.2⟩, begun.1⟩
  refine .bind entered fun _ => .bind (guards_hashDataEntry stable_entering entry) fun _ => ?_
  split
  · unfold startOtaEntry
    split_ifs with _ _ directory
    · exact .bindLocals fun _ _ => .bindRequire fun required => guards_assign fun _ entering =>
        ⟨⟨entering.1.outFile, nofun, nofun, entering.1.stands⟩, (if_neg required.2.2.2).symm⟩
    · exact .bindRequire fun required => guards_assign fun _ entering =>
        ⟨⟨entering.1.outFile, nofun, nofun, entering.1.stands⟩, (if_neg required.2.1).symm⟩
    · exact guards_assign fun _ entering =>
        ⟨⟨entering.1.outFile, nofun, nofun, entering.1.stands⟩, (if_pos (plain directory.2)).symm⟩
    · exact guards_startData within padded plain
    · exact guards_startApp within padded plain
    · exact .fail _
  · exact guards_startInstalled within padded plain _

end Starting

theorem guards_consumeHeaderBytes (input : Bytes) :
    Guards invariant (fun state => options.Ready invariant state ∧ state.kind = .header)
      (options.consumeHeaderBytes input) fun _ => options.Ready invariant := by
  refine .bindLocals fun state _ => ?_
  dsimp only
  split
  · exact .bind (guards_stable fun _ front => ⟨{ front.1 with stands := rfl }, front.2⟩)
      fun _ => .pure fun _ front => front.1
  · refine .bind (guards_stable fun _ front => ⟨{ front.1 with stands := rfl }, front.2⟩)
      fun _ => .bindConclude fun parsed found => ?_
    cases parsed with
    | none =>
      exact .bind (guards_stable fun _ front => ⟨{ front.1 with stands := rfl }, front.2⟩)
        fun _ => .pure fun _ front => front.1
    | some entry =>
      have fresh : Guards invariant
          (fun state => options.Ready invariant state ∧ state.kind = .header)
          (assign fun state => { state with zeroBlocks := 0 })
          fun _ state => state.kind = .header := guards_assign fun _ front => front.2
      have started : Guards invariant (fun state => state.kind = .header)
          (options.startEntry entry) fun _ => options.Ready invariant :=
        fun locals store header holds =>
          (guards_startEntry within (by rfl) (tarParseHeader_safe found).2 locals store
            ⟨header, rfl⟩ holds).imp fun _ _ ended => ⟨ended.1.1.ready, ended.2⟩
      exact .bind fresh fun _ => .bind started fun _ => .pure fun _ => id

theorem guards_putContent (ready : options.Ready invariant state) (stable : Stable pre)
    (data : Bytes) : Guards invariant pre (options.putContent state data) fun _ => pre := by
  have toFile : Guards invariant pre (putFile state data) fun _ => pre := by
    unfold putFile
    split
    · exact .bind guards_probe fun _ => guards_assign fun _ => stable rfl
    · split
      · rename_i path opened
        exact guards_mapFs (guards_onStore (keeps_fsWriteAll (ready.outFile path opened) _ _))
      · exact .fail _
  unfold putContent
  split
  · exact .bindRequire fun _ => guards_assign fun _ => stable rfl
  · split
    · rename_i writer chosen
      exact guards_onStore ((within.writer writer chosen).write _ _)
    · exact .fail _
  · exact .pure fun _ => id
  · exact toFile
  · exact toFile

theorem guards_consumeFileBytes (input : Bytes) :
    Guards invariant (fun state => options.Directed invariant state.cursor state)
      (options.consumeFileBytes input) fun _ => options.Ready invariant := by
  have stable : Stable fun state => options.Directed invariant state.cursor state :=
    fun {before after} same directed => by
      have moved := stable_directed same directed
      exact ⟨moved.1.ready, moved.2⟩
  have ends : Guards invariant (fun state => options.Directed invariant state.cursor state)
      options.finishFileEntry fun _ => options.Ready invariant := fun locals store directed holds =>
    (guards_finishFileEntry within locals store directed holds).imp fun _ _ ended =>
      ⟨ended.1.1.ready, ended.2⟩
  refine .bindLocals fun state directed => ?_
  dsimp only
  split
  · exact .bind ends fun _ => .pure fun _ ready => ready
  refine .bind (guards_stable fun state directed => ?_) fun _ =>
    .bind (guards_putContent within directed.1 stable _) fun _ => .bind (guards_stable
      fun _ directed => ⟨{ directed.1 with stands := rfl }, directed.2⟩) fun _ => ?_
  · split
    · exact stable (by rfl) directed
    · exact directed
  have past : Guards invariant (fun state => options.Directed invariant state.cursor state)
      (options.finishIfOver (state.remaining - (input.take state.remaining).length))
      fun _ => options.Ready invariant := by
    unfold finishIfOver
    split
    · exact ends
    · exact .pure fun _ directed => directed.1
  exact .bind past fun _ => .pure fun _ => id

theorem guards_consume (input : Bytes) :
    Guards invariant (options.Ready invariant) (options.consume input)
      fun _ => options.Ready invariant := by
  refine .bindExact fun state ready => ?_
  cases kind : state.kind with
  | header =>
    exact (guards_consumeHeaderBytes within input).mono (fun _ same => same ▸ ⟨ready, kind⟩)
      fun _ _ => id
  | file =>
    exact (guards_consumeFileBytes within input).mono
      (fun _ same => same ▸ ⟨ready, ready.output kind⟩) fun _ _ => id
  | padding =>
    refine .bindExact fun state same => .bindRequire fun _ => ?_
    subst same
    have taken : ∀ left, Guards invariant (fun locals => locals = state) (assign fun locals =>
        { locals with
          paddingRemaining := left
          kind := if left = 0 then .header else locals.kind }) fun _ =>
            options.Ready invariant := by
      refine fun left => guards_assign fun locals same => ?_
      subst same
      refine ⟨ready.outFile, ready.destination, fun file => ?_, rfl⟩
      split at file
      · cases file
      · exact ready.output file
    exact .bind (taken _) fun _ => .pure fun _ => id

theorem guards_feedLoop (fuel : Nat) (input : Bytes) :
    Guards invariant (options.Ready invariant) (options.feedLoop fuel input) fun _ =>
      options.Ready invariant := by
  induction fuel generalizing input with
  | zero => exact .fail _
  | succ fuel ih =>
    refine .bindLocals fun state _ => ?_
    split
    · exact .pure fun _ => id
    · exact .bind (.recovering (guards_consume within input) fun _ =>
        guards_giveUp within _) fun _ => ih _

theorem guards_feed (data : Bytes) :
    Guards invariant (options.Ready invariant) (options.feed data) fun _ =>
      options.Ready invariant :=
  .bind (guards_feedLoop within _ _) fun _ => .bindLocals fun _ _ => .require

theorem guards_finish :
    Guards invariant (options.Ready invariant) options.finish fun _ => options.Ready invariant := by
  refine .bindLocals fun state _ => ?_
  split
  · exact (guards_giveUp within _).mono (fun _ _ => trivial) fun _ _ ready => ready
  refine .bindRequire fun _ => .bindRequire fun _ =>
    .bind (.onlyIf fun _ => .bindRequire fun _ => ?_) fun _ => .require
  split
  · exact .bind (guards_ensureDataCleared within
      fun same placed => (stable_placed same placed).ready) fun _ =>
        guards_mapFs (guards_onStore (keeps_writeFile within .checksum _))
  · exact .pure fun _ => id

theorem guards_feedPieces (pieces : List Bytes) :
    Guards invariant (options.Ready invariant) (options.feedPieces pieces) fun _ =>
      options.Ready invariant := by
  induction pieces with
  | nil => exact .pure fun _ => id
  | cons piece rest ih =>
    exact .bind (.recovering (guards_mapFs guards_probe) fun _ =>
      guards_giveUp within _) fun _ => .bind (guards_feed within piece) fun _ => ih

theorem guards_installStream (zlib : InflateApi) (archive : Bytes) :
    Guards invariant (options.Ready invariant) (options.installStream zlib archive)
      fun _ => options.Ready invariant := by
  have ended : ∀ result, Guards invariant (options.Ready invariant) (options.endStream result)
      fun _ => options.Ready invariant := by
    intro result
    cases result with
    | ended unused => exact .pure fun _ => id
    | truncated | corrupt =>
      exact (guards_giveUp within _).mono (fun _ _ => trivial) fun _ _ ready => ready
  exact .bind (guards_feedPieces within _) fun _ => .bind (ended _) fun _ =>
    .bind (.recovering (guards_mapFs guards_probe) fun _ => guards_giveUp within _)
      fun _ => guards_finish within

end

/-! With nothing to keep, the walk says where the state machine stands. -/

theorem within_trivially : options.Within fun _ => True where
  asks _ _ _ _ := trivial
  files _ _ _ _ _ := trivial
  writer _ _ := ⟨fun _ _ _ _ _ => trivial, fun _ _ _ _ _ _ => trivial, fun _ _ _ _ _ => trivial,
    fun _ _ _ _ => trivial⟩
  clear _ _ _ _ _ _ := trivial

theorem returns_startEntry {admits : Answer → Prop} (plain : entry.kind = .dir → entry.size = 0)
    (header : state.kind = .header) (store : Storage) :
    Returns admits (options.startEntry entry)
      (fun _ after => after.1.kind = kindOf entry ∧
        after.1.cursor = (enterEntry entry state).cursor) (state, store) :=
  ((guards_startEntry within_trivially (by rfl) plain state store ⟨header, rfl⟩
    trivial).admitting fun _ _ => trivial).returns fun _ _ ended => ⟨ended.1.2, ended.1.1.stands⟩

theorem returns_finishFileEntry {admits : Answer → Prop} (state : TarState) (store : Storage) :
    Returns admits options.finishFileEntry
      (fun _ after => after.1.kind = kindAfter after.1.paddingRemaining ∧
        after.1.cursor = state.cursor) (state, store) := by
  have anywhere : options.Aimed (fun _ => True) state := fun _ _ _ _ _ => trivial
  have directed : options.Directed (fun _ => True) state.cursor state :=
    ⟨⟨fun _ _ _ _ _ => trivial, fun _ => anywhere, fun _ _ => anywhere, rfl⟩, fun _ => anywhere⟩
  exact ((guards_finishFileEntry within_trivially state store directed
    trivial).admitting fun _ _ => trivial).returns fun _ _ ended => ⟨ended.1.2, ended.1.1.stands⟩

/-- Variables without an entry at hand are placed. -/
theorem ready_of_idle (closed : state.outFile = none) (nowhere : state.output = .none)
    (header : state.kind = .header) : options.Ready invariant state :=
  ⟨fun _ opened => (nomatch closed.symm.trans opened),
    fun files => (nomatch nowhere.symm.trans files), fun file => (nomatch header.symm.trans file),
    rfl⟩

theorem keeps_install (within : options.Within invariant) (zlib : InflateApi)
    (archivePath : Bytes) : Keeps invariant (options.install zlib archivePath) := by
  refine .bind (.bind ?_ fun _ => .bind (keeps_mapFs (leaves_lookup id _).keepsAny)
    fun archive => Guards.withLocals (guards_installStream within zlib _)
      (ready_of_idle rfl rfl rfl)) fun _ => ?_
  · unfold initManifestSeen
    split
    · exact .pure _
    · exact .recovering (keeps_probe _) fun _ => .fail _
  · split
    · rename_i path version noted
      exact keeps_mapFs (keeps_writeFile within (.version path version noted) _)
    · exact .pure _

theorem Fills.wider {other : InstallOptions} (fills : other.Fills path)
    (root : other.dataRoot = options.dataRoot) (pixa : other.pixa = options.pixa) :
    options.Fills path := by
  have wider : ∀ path, other.Inside path → options.Inside path :=
    fun path ⟨relative, safe, same⟩ => ⟨relative, safe, root ▸ same⟩
  cases fills with
  | inside path inside => exact .inside path (wider path inside)
  | unpacked packed destination file inside extracted =>
    exact .unpacked packed destination file (wider _ inside) (pixa ▸ extracted)

/-- Other options that note no version may write no more. -/
theorem Within.narrower (within : options.Within invariant) (other : InstallOptions)
    (root : other.dataRoot = options.dataRoot) (pixa : other.pixa = options.pixa)
    (checksum : other.installedChecksumPath = options.installedChecksumPath)
    (unnoted : other.versionFile = none)
    (writer : ∀ writer, other.appWriter = some writer → options.appWriter = some writer)
    (clear : other.clearData = options.clearData) : other.Within invariant := by
  have wider : ∀ path, other.MayWrite path → options.MayWrite path := by
    intro path may
    cases may with
    | checksum => exact checksum ▸ .checksum
    | version path version noted => cases unnoted.symm.trans noted
    | fills path fills => exact .fills path (fills.wider root pixa)
  exact {
    asks := fun path store may => within.asks path store (may.imp (wider path)
      fun ⟨target, fills, above⟩ => ⟨target, fills.wider root pixa, above⟩)
    files := fun path content store may => within.files path content store (wider path may)
    writer := fun chosen named => within.writer chosen (writer chosen named)
    clear := clear ▸ within.clear }

theorem keeps_installOta (within : options.Within invariant) (zlib : InflateApi)
    (archivePath : Bytes) : Keeps invariant (options.installOta zlib archivePath) :=
  keeps_install (within.narrower options.forOta rfl rfl rfl rfl (fun _ => id) rfl) zlib archivePath

end InstallOptions

section Segments

variable {τ : Type} {pre : τ → Prop}

/-- A call without effect leaves variables and storage alone. -/
theorem guards_call : Guards invariant pre (probe : Routine (τ × Storage) Unit) fun _ => pre :=
  fun _ _ required holds => ((keeps_probe fun state : τ × Storage =>
    pre state.1 ∧ invariant state.2).ensures ⟨required, holds⟩).mono (fun _ _ => id)
      (fun _ _ ended => ended.2) fun _ ended => ended.2

theorem guards_inflatePieces {write : Bytes → Routine (τ × Storage) Unit}
    (guarded : ∀ piece, Guards invariant pre (write piece) fun _ => pre) (size : Nat)
    (pieces : List Bytes) (produced : Nat) :
    Guards invariant pre (inflatePieces write size pieces produced) fun _ => pre := by
  induction pieces generalizing produced with
  | nil => exact .pure fun _ => id
  | cons piece rest ih =>
    refine .bind guards_call fun _ => .bindRequire fun _ => .bind ?_ fun _ => ih _
    unfold writePiece
    split
    · exact .pure fun _ => id
    · exact guarded piece

theorem guards_segmentedInflate {write : Bytes → Routine (τ × Storage) Unit}
    (guarded : ∀ piece, Guards invariant pre (write piece) fun _ => pre) (zlib : InflateApi)
    (package : Bytes) (segment : Segment) :
    Guards invariant pre (segmentedInflate zlib package segment write) fun _ => pre := by
  refine .bindRequire fun _ =>
    .bind (guards_inflatePieces guarded _ _ _) fun produced => ?_
  cases (zlib.run InstallOptions.ioBufSize
      (field package segment.offset segment.compressedSize)).2 with
  | ended unused => exact .bindRequire fun _ => .require
  | truncated | corrupt => exact .fail _

end Segments

theorem keeps_installDataZlib (within : options.Within invariant) (zlib : InflateApi)
    (digest : DigestApi) (package : Bytes) (manifest : SegmentedManifest) :
    Keeps invariant (installDataZlib options zlib digest package manifest) := by
  have inside := within.narrower options.forData rfl rfl rfl rfl nofun rfl
  have body : Guards invariant (options.forData.Ready invariant) (do
      onStore probe
      segmentedInflate zlib package manifest.data options.forData.feed
      onStore probe
      verifyData digest manifest
      options.forData.finish) fun _ => options.forData.Ready invariant :=
    Guards.bind guards_probe fun _ =>
      Guards.bind (guards_segmentedInflate (fun _ => guards_feed inside _) _ _ _)
        fun _ => Guards.bind guards_probe fun _ =>
      Guards.bind (Guards.bindLocals fun _ _ => Guards.require) fun _ =>
      guards_finish inside
  have released := guards_releaseEntryBuffers inside
  refine .bind (.require _ _) fun _ =>
    .bind (keeps_fsRemoveOptional fun content store =>
      within.files _ content store .checksum) fun _ => ?_
  exact Guards.withLocals (Guards.withCleanup body
    (fun _ => released.mono (fun _ _ => trivial) fun _ _ => id) released)
    (ready_of_idle rfl rfl rfl)

end Gizos.Bundle
