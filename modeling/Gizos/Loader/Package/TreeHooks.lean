import Gizos.Loader.Package.DataTree

/-! # The tree and its name through the hooks of the installer

At every call of the state machine that may fail or be cut, the files are named as they should be:
nothing has changed, or the tree has no name.
-/
namespace Gizos.Loader

open Fault Pal Gizos.Bundle InstallOptions

namespace TreeRun

variable {run : TreeRun} {done : List (Entry × Bytes)} {entry : Entry} {content got : Bytes}
  {state : TarState} {store : Storage}

theorem data_relative (safe : pathIsSafeRelative entry.path = true)
    (path : isDataPath entry.path = true) :
    pathIsSafeRelative (entry.path.drop (ascii "data/").length) = true ∧
      entry.path = ascii "data" ++ slash :: entry.path.drop (ascii "data/").length := by
  obtain ⟨relative, same⟩ := List.isPrefixOf_iff_prefix.mp path
  rw [← same] at safe ⊢
  have split : ascii "data/" ++ relative = ascii "data" ++ slash :: relative := rfl
  rw [split] at safe
  have both := safeRelative_append.mp (pathIsSafeRelative_iff.mp safe)
  exact ⟨pathIsSafeRelative_iff.mpr both.2, split⟩

/-- A suffix without a separator is looked for behind the last one. -/
theorem pathHasSuffix_append {front back suffix : Bytes} (plain : slash ∉ suffix) :
    pathHasSuffix (front ++ slash :: back) suffix = pathHasSuffix back suffix := by
  have iff : ∀ path : Bytes, pathHasSuffix path suffix = true ↔ suffix <:+ path := by
    intro path
    unfold pathHasSuffix
    rw [List.suffix_iff_eq_drop, Bool.and_eq_true, decide_eq_true_iff, decide_eq_true_iff]
    refine ⟨fun both => both.2.symm, fun same => ⟨?_, same.symm⟩⟩
    have lengths := congrArg List.length same
    rw [List.length_drop] at lengths
    omega
  rw [Bool.eq_iff_iff, iff, iff]
  constructor
  · intro ends
    by_cases short : suffix.length ≤ back.length
    · have whole : back <:+ front ++ slash :: back := ⟨front ++ [slash], by simp⟩
      exact List.suffix_of_suffix_length_le ends whole short
    · have longer : slash :: back <:+ suffix :=
        List.suffix_of_suffix_length_le (List.suffix_append _ _) ends (by simpa using by omega)
      exact absurd (longer.subset List.mem_cons_self) plain
  · intro ends
    exact ends.trans ⟨front ++ [slash], by simp⟩

theorem Sound.spares (sound : run.Sound) {writer : AppWriter}
    (chosen : run.options.appWriter = some writer) :
    (∀ entry, Leaves Storage.files (writer.start entry)) ∧
      (∀ entry data, Leaves Storage.files (writer.write entry data)) ∧
      (∀ entry, Leaves Storage.files (writer.finish entry)) ∧ Leaves Storage.files writer.abort :=
  ⟨fun entry => .of_keeps fun files => (sound.writer writer chosen files).start entry,
    fun entry data => .of_keeps fun files => (sound.writer writer chosen files).write entry data,
    fun entry => .of_keeps fun files => (sound.writer writer chosen files).finish entry,
    .of_keeps fun files => (sound.writer writer chosen files).abort⟩

theorem endsWell_fileOver (fills : run.Fills done entry state store.files)
    (plain : pathHasSuffix entry.path pixaSuffix = false)
    (opened : state.outFile = some state.dstPath) (tree : HasTree run.options store.files
      (Function.update (treeOf run.options done) state.dstPath (some content))) :
    run.EndsWell (run.options.finishFile state)
      (fun _ after => run.Stands (done ++ [(entry, content)])
        { viewOf after.1 with pixaData := [] } after.2.files) (state, store) := by
  have good : run.Good store.files := identified_unnamed fills.unnamed
  have complete : HasTree run.options store.files
      (treeOf run.options (done ++ [(entry, content)])) := by
    rw [treeOf_append_file fills.path fills.kind]
    have writes : otaWrites run.options (entry.path, content) = [(state.dstPath, content)] := by
      simp [otaWrites, plain, fills.destination]
    rw [writes]
    exact tree
  unfold finishFile
  rw [fills.suffix, plain, opened]
  refine .bind (endsWell_mapFs (endsWell_spared (leaves_probe _) good fun _ first same => ?_))
  rw [← same] at good complete
  refine endsWell_cleanup (endsWell_mapFs (endsWell_spared (leaves_probe _) good
    fun _ last again => ?_))
  rw [← again] at complete
  exact fills.past (by rw [again, same]; exact fills.unnamed) complete

/-- An entry has been started: it is over at once, or its contents come next. -/
def Started (run : TreeRun) (done : List (Entry × Bytes)) (entry : Entry)
    (state : TarState × Storage) : Prop :=
  (entry.size = 0 → run.Stands (done ++ [(entry, [])]) (viewOf state.1) state.2.files) ∧
    (entry.size ≠ 0 → run.Takes done entry [] state.1 state.2.files)

theorem started_pass (output : state.output = .skip)
    (stands : run.Stands done (viewOf state) store.files)
    (past : ∀ content, run.Stands (done ++ [(entry, content)]) (viewOf state) store.files) :
    run.Started done entry (state, store) :=
  ⟨fun _ => past [], fun _ => .pass (.inl output) stands past⟩

section

variable (sound : run.Sound)

include sound

theorem endsWell_appOver (stands : run.Stands done (viewOf state) store.files)
    (past : run.Stands (done ++ [(entry, content)]) (viewOf state) store.files) (hand : Entry) :
    run.EndsWell (run.options.finishAppEntry hand)
      (fun _ after => run.Stands (done ++ [(entry, content)]) (viewOf after.1) after.2.files)
      (state, store) := by
  have good := stands.good sound
  unfold finishAppEntry
  split
  · exact .fail good
  · rename_i writer chosen
    obtain ⟨-, -, finishes, aborts⟩ := sound.spares chosen
    refine endsWell_cleanup (.recovering ?_)
    refine (endsWell_spared (finishes hand) good fun _ after same => ?_).mono
      (fun _ _ => id) (fun code later good => ?_) fun _ => id
    · rw [← same] at past
      exact past
    · exact .bind (endsWell_spared aborts good fun _ after same => .fail (by
        rw [← same] at good
        exact good))

theorem endsWell_checksumOver (path : entry.path = checksumPath) (undigested : run.digests = false)
    (stands : run.Stands done { viewOf state with checksumData := checksumOf done } store.files)
    (taken : state.checksumData = checksumOf done ++ content) :
    run.EndsWell run.options.finishChecksumEntry
      (fun _ after => run.Stands (done ++ [(entry, content)]) (viewOf after.1) after.2.files)
      (state, store) := by
  have good := stands.good sound
  have notData : isDataPath entry.path = false := by rw [path]; decide
  have other := dataFiles_of_not_data content notData
  have sum : checksumOf (done ++ [(entry, content)]) = checksumOf done ++ content := by
    simp [checksumOf, path]
  -- The checksum is the first one, so nothing has been emptied yet.
  have ends : ∀ needed after, state.checksumSeen = false → after = store.files →
      run.Stands (done ++ [(entry, content)])
        (viewOf { state with checksumSeen := true, dataInstallNeeded := needed }) after := by
    rintro needed _ fresh rfl
    have early := stands.early fresh
    have uncleared : state.dataCleared = false := by
      cases cleared : state.dataCleared with
      | false => rfl
      | true => exact absurd ((stands.cleared cleared).1.symm.trans early.2) (by simp)
    refine ⟨by rintro ⟨⟩, fun _ => ⟨(stands.waiting uncleared).1, fun _ => ?_⟩, fun cleared =>
      ?_, ?_⟩
    · rw [dataFiles_append, early.1, other]
      rfl
    · exact absurd (uncleared.symm.trans cleared) (by simp)
    · refine ⟨stands.sum.1, taken.trans ?_⟩
      rw [← sum, nameOf, if_neg (by simp [undigested])]
  refine .bind (.read (.bind (.require (fun fresh =>
    .bind (.update ?_)) fun _ => good)))
  split
  · exact .update (ends _ _ fresh.1 rfl)
  · refine .bind (endsWell_spared ?_ good fun installed after same =>
      .update (ends _ _ fresh.1 same))
    exact .of_keeps fun files => (leaves_readInstalledChecksum _).keepsAny

theorem endsWell_packedOver (fills : run.Fills done entry state store.files)
    (packed : pathHasSuffix entry.path pixaSuffix = true) (taken : state.pixaData = content)
    (tree : HasTree run.options store.files (treeOf run.options done)) :
    run.EndsWell (run.options.finishFile state)
      (fun _ after => run.Stands (done ++ [(entry, content)])
        { viewOf after.1 with pixaData := [] } after.2.files) (state, store) := by
  have unnamed : ∀ {after : Storage}, after.files run.options.installedChecksumPath =
      store.files run.options.installedChecksumPath → run.Good after.files := fun same =>
    identified_unnamed (same.trans fills.unnamed)
  have apart := sound.apart.unpacked content state.dstPath
  unfold finishFile
  rw [fills.suffix, packed, taken]
  refine .recovering (.on (.bind (ensures_probe (.bind
    ((ensures_extractFiles apart).mono ?_ (fun _ _ same => .fail (unnamed same))
      fun _ same => unnamed same)) (fun _ _ => .fail (unnamed rfl)) (unnamed rfl))))
  intro _ after written
  have still : after.files run.options.installedChecksumPath = none := by
    rw [written, writeFiles_other apart]
    exact fills.unnamed
  have complete : HasTree run.options after.files
      (treeOf run.options (done ++ [(entry, content)])) := by
    intro path inside
    have writes : otaWrites run.options (entry.path, content) =
        (run.options.pixa.extract content state.dstPath).1 := by
      simp [otaWrites, packed, fills.destination]
    rw [treeOf_append_file fills.path fills.kind, writes, written]
    exact writeFiles_congr (tree path inside) _
  exact .require (fun _ => fills.past still complete) fun _ =>
    .fail (identified_unnamed still)

/-- Whatever the contents were, the tree is the one of the entries after them. -/
theorem Takes.finish (takes : run.Takes done entry content state store.files) :
    run.EndsWell run.options.finishFileEntry
      (fun _ after => run.Stands (done ++ [(entry, content)]) (viewOf after.1) after.2.files)
      (state, store) := by
  refine ensures_finishRehashed ?_
  rintro later ⟨hashed, hashing, same⟩
  have takes : run.Takes done entry content later store.files := takes.congr (by rw [same]; rfl)
  cases takes with
  | pass output stands past =>
    rcases output with output | output
    · rw [output]
      exact .update (past content)
    · rw [output]
      exact endsWell_appOver sound stands (past content) _
  | checksum output path undigested stands taken =>
    rw [output]
    exact endsWell_cleanup (endsWell_checksumOver sound path undigested stands taken)
  | file fills plain opened present tree =>
    rw [fills.output]
    exact .bind (ensures_unchecked sound.unchecked
      (endsWell_cleanup (endsWell_fileOver fills plain opened tree)))
  | packed fills packed taken tree =>
    rw [fills.output]
    exact .bind (ensures_unchecked sound.unchecked
      (endsWell_cleanup (endsWell_packedOver sound fills packed taken tree)))

theorem Takes.put (takes : run.Takes done entry got state store.files) (data hashed : Bytes) :
    run.EndsWell (run.options.putContent state data)
      (fun _ after => run.Takes done entry (got ++ data)
        (after.1.advance run.options.crc32 data).payload after.2.files)
          ({ state with hashed := hashed }, store) := by
  have good := takes.good sound
  -- The variables the contents are taken with are kept apart from the ones that change.
  generalize same : ({ state with hashed := hashed } : TarState) = running
  unfold putContent
  cases takes with
  | pass output stands past =>
    rcases output with output | output
    · rw [output]
      subst same
      exact .pure (.pass (.inl output) stands past)
    · rw [output]
      dsimp only
      split
      · rename_i writer chosen
        subst same
        refine endsWell_spared ((sound.spares chosen).2.1 _ data) good fun _ after files => ?_
        rw [← files] at stands past
        exact .pass (.inr output) stands past
      · exact .fail good
  | checksum output path undigested stands taken =>
    rw [output]
    subst same
    refine .bind (.require (fun _ => .update ?_) fun _ => good)
    exact .checksum output path undigested stands (by rw [← List.append_assoc, ← taken]; rfl)
  | file fills plain opened present tree =>
    rw [fills.output]
    unfold putFile
    rw [fills.suffix, plain, opened]
    subst same
    have unnamed : ∀ part : Bytes, Function.update store.files state.dstPath (some part)
        run.options.installedChecksumPath = none := fun part => by
      rw [Function.update_of_ne fills.apart.symm]
      exact fills.unnamed
    have cut : ∀ {after : Storage}, Part state.dstPath (got ++ data) store after →
        run.Good after.files := by
      rintro after ⟨part, -, files⟩
      exact identified_unnamed (by rw [files]; exact unnamed part)
    refine endsWell_mapFs (.on ((ensures_fsWriteAll le_rfl present).mono ?_
      (fun _ _ => cut) fun _ => cut))
    intro _ after written
    refine .file { fills with unnamed := ?_ } plain opened ?_ ?_
    · exact (congrFun written _).trans (unnamed _)
    · exact (congrFun written _).trans (Function.update_self ..)
    · intro path inside
      refine (congrFun written path).trans ?_
      change Function.update store.files state.dstPath (some (got ++ data)) path =
        Function.update (treeOf run.options done) state.dstPath (some (got ++ data)) path
      by_cases here : path = state.dstPath
      · rw [here, Function.update_self, Function.update_self]
      · have known := tree path inside
        rw [Function.update_of_ne here] at known
        rw [Function.update_of_ne here, Function.update_of_ne here, known]
  | packed fills packed taken tree =>
    rw [fills.output]
    unfold putFile
    rw [fills.suffix, packed]
    subst same
    refine .bind (endsWell_spared (leaves_probe _) good fun _ after files => ?_)
    rw [← files] at tree
    refine .update (.packed { fills with unnamed := ?_ } packed (congrArg (· ++ data) taken) tree)
    exact (congrFun files _).trans fills.unnamed

/-- Contents come next, or are over at once. -/
theorem Takes.start (takes : run.Takes done entry [] state store.files) :
    run.EndsWell (run.options.startContent entry) (fun _ => run.Started done entry)
      (state, store) := by
  unfold startContent
  split
  · rename_i empty
    exact (takes.finish sound).imp fun _ _ past =>
      ⟨fun _ => past, fun filled => absurd empty filled⟩
  · rename_i filled
    exact .update ⟨fun empty => absurd empty filled, fun _ => takes.congr rfl⟩

theorem endsWell_dataFile (fills : run.Fills done entry state store.files)
    (unpacked : state.pixaData = [])
    (tree : HasTree run.options store.files (treeOf run.options done)) :
    run.EndsWell (do
      onStore (ensureParentDirs state.dstPath)
      openOutFile entry state.dstPath
      run.options.startContent entry) (fun _ => run.Started done entry) (state, store) := by
  have good : run.Good store.files := identified_unnamed fills.unnamed
  refine .bind (endsWell_spared (leaves_ensureParentDirs _) good fun _ made same => ?_)
  rw [← same] at fills tree good
  refine .bind ?_
  unfold openOutFile
  split
  · rename_i packed
    exact .pure (Takes.start sound (.packed fills packed unpacked tree))
  · rename_i plain
    have plain : pathHasSuffix entry.path pixaSuffix = false := by simpa using plain
    have unnamed : Function.update made.files state.dstPath (some [])
        run.options.installedChecksumPath = none := by
      rw [Function.update_of_ne fills.apart.symm]
      exact fills.unnamed
    have opened : run.Good ((made.ask state.dstPath).withFile state.dstPath (some [])).files :=
      identified_unnamed unnamed
    refine .bind (endsWell_mapFs (.on (.bind (.update (ensures_act
      (.update ?_) (fun _ _ => good) (fun _ _ => opened) good opened)))))
    refine Takes.start sound (.file { fills with unnamed := unnamed } plain rfl
      (Function.update_self ..) ?_)
    intro path inside
    change Function.update made.files state.dstPath (some []) path =
      Function.update (treeOf run.options done) state.dstPath (some []) path
    by_cases here : path = state.dstPath
    · rw [here, Function.update_self, Function.update_self]
    · rw [Function.update_of_ne here, Function.update_of_ne here]
      exact tree path inside

section

variable (stands : run.Stands done (viewOf state) store.files)

include stands

theorem endsWell_ensureDataCleared (needed : state.dataInstallNeeded = true) :
    run.EndsWell run.options.ensureDataCleared
      (fun _ after => after.1 = { state with dataCleared := true } ∧
        after.2.files run.options.installedChecksumPath = none ∧
        HasTree run.options after.2.files (treeOf run.options done)) (state, store) := by
  obtain ⟨clear, chosen, retires⟩ := sound.clears
  refine .bind (.read ?_)
  cases cleared : state.dataCleared with
  | true =>
    refine .pure ⟨?_, (stands.cleared cleared).2⟩
    rw [← cleared]
  | false =>
    have pending : ¬(false = true ∨ ¬state.dataInstallNeeded = true) := by simp [needed]
    obtain ⟨unchanged, none⟩ := stands.waiting cleared
    have ended : ∀ {after : Storage}, after.files run.options.installedChecksumPath = .none ∨
        Unchanged run.options store.files after.files → run.Good after.files := by
      rintro after (unnamed | same)
      · exact identified_unnamed unnamed
      · exact (stands.good sound).unchanged same
    rw [if_neg pending, chosen]
    refine .bind (.on ((retires store unchanged).mono ?_ (fun _ _ => ended) fun _ => ended))
    rintro _ after ⟨unnamed, emptied⟩
    refine .update ⟨rfl, unnamed, ?_⟩
    have nothing : treeOf run.options done = fun _ => .none := by
      unfold treeOf
      rw [none needed]
      rfl
    rw [nothing]
    exact emptied

/-- A data entry goes into the emptied tree, or is passed over. -/
theorem endsWell_startData (unpacked : state.pixaData = [])
    (safe : pathIsSafeRelative entry.path = true) (bare : entry.kind = .dir → entry.size = 0)
    (apart : joined run.options.dataRoot (entry.path.drop (ascii "data/").length) ≠
      run.options.installedChecksumPath) (path : isDataPath entry.path = true) :
    run.EndsWell (run.options.startData entry) (fun _ => run.Started done entry)
      (state, store) := by
  have good := stands.good sound
  have other : entry.path ≠ checksumPath := by
    intro same
    rw [same] at path
    exact absurd path (by decide)
  obtain ⟨inside, split⟩ := data_relative safe path
  refine .bind (.read (.bind (.require (fun seen => ?_) fun _ => good)))
  cases needed : state.dataInstallNeeded with
  | false =>
    have skipped : run.Stands done (viewOf state) store.files := stands
    refine .update (started_pass rfl skipped fun content => ?_)
    exact stands.pass other (.inr ⟨seen, needed⟩)
  | true =>
    refine .bind ((endsWell_ensureDataCleared sound stands needed).imp ?_)
    rintro _ ⟨later, under⟩ ⟨rfl, unnamed, tree⟩
    have good : run.Good under.files := identified_unnamed unnamed
    have cleared : ∀ {view : InstallView}, view.checksumSeen = true → view.dataInstallNeeded =
      true →
        view.dataCleared = true →
        (view.dataDigest = run.digests ∧ view.checksumData = run.nameOf done) →
        run.Stands done view under.files := fun seen needed cleared sum =>
      ⟨fun unseen => absurd (seen.symm.trans unseen) nofun,
        fun uncleared => absurd (cleared.symm.trans uncleared) nofun, fun _ =>
          ⟨needed, unnamed, tree⟩,
        sum⟩
    have nonempty : entry.path.drop (ascii "data/").length ≠ [] := by
      intro none
      rw [none] at inside
      exact absurd inside (by decide)
    rw [if_neg nonempty]
    refine .bind (.require (fun _ => .bind (.update ?_)) fun _ => good)
    unfold startInstalled
    cases joins : pathJoin pathMax run.options.dataRoot
        (entry.path.drop (ascii "data/").length) with
    | error code => exact .bind (.fail good)
    | ok place =>
      obtain ⟨-, rfl⟩ := pathJoin_ok joins
      refine .bind (.ret (.bind (.update ?_)))
      cases kind : entry.kind with
      | dir =>
        refine .bind (endsWell_mapFs (endsWell_spared (leaves_makeDirAll _) good
          fun _ made same => ?_))
        refine .update ⟨fun _ => ?_, fun filled => absurd (bare kind) filled⟩
        have passed := (cleared seen needed rfl stands.sum :
          run.Stands done (viewOf { state with dataCleared := true }) under.files)
        rw [← same] at passed
        exact passed.pass other (.inl (dataFiles_other _ fun data => by simp [kind] at data))
      | file =>
        refine .bind (.update ?_)
        have suffix : pathHasSuffix (entry.path.drop (ascii "data/").length)
            pixaSuffix = pathHasSuffix entry.path pixaSuffix := by
          conv_rhs => rw [split]
          exact (pathHasSuffix_append (by decide)).symm
        exact endsWell_dataFile sound ⟨path, kind, rfl, suffix, rfl, apart, seen, needed, rfl,
          stands.sum, unnamed⟩ unpacked tree

/-- The application goes to its writer, or is passed over. -/
theorem endsWell_startApp (path : isAppPath entry.path = true) :
    run.EndsWell (run.options.startApp entry) (fun _ => run.Started done entry) (state, store) := by
  have good := stands.good sound
  have other : entry.path ≠ checksumPath := by
    intro same
    rw [same] at path
    exact absurd path (by decide)
  have notData : isDataPath entry.path = false :=
    Bool.eq_false_iff.mpr fun data => absurd ((not_app_of_data data).symm.trans path) nofun
  have past : ∀ {manifest app : Bool} content, run.Stands (done ++ [(entry, content)])
      { viewOf state with packageManifestSeen := manifest, appSeen := app } store.files :=
    fun content => stands.pass other (.inl (dataFiles_of_not_data content notData))
  have before : ∀ app : Bool, run.Stands done { viewOf state with appSeen := app } store.files :=
    fun app => { stands with }
  refine .bind (.read (.bind (.require (fun _ => ?_) fun _ => good)))
  split
  · exact .update (started_pass rfl stands past)
  refine .bind (.require (fun _ => .bind (.update ?_)) fun _ => good)
  split
  · exact .update (started_pass rfl (before true) past)
  split
  · exact .fail good
  · rename_i writer chosen
    refine .bind (.update (.bind (endsWell_spared
      ((sound.spares chosen).1 entry) good fun _ after same => .bind (.update ?_))))
    have before := before true
    rw [← same] at before past
    exact Takes.start sound (.pass (.inr rfl) before past)

/-- Every entry that is started leaves the files named as they should be. -/
theorem endsWell_startOtaEntry (unpacked : state.pixaData = [])
    (safe : pathIsSafeRelative entry.path = true) (bare : entry.kind = .dir → entry.size = 0)
    (apart : isDataPath entry.path = true →
      joined run.options.dataRoot (entry.path.drop (ascii "data/").length) ≠
      run.options.installedChecksumPath)
    (data : state.dataDigest = true → isDataPath entry.path = true) :
    run.EndsWell (run.options.startOtaEntry entry) (fun _ => run.Started done entry)
      (state, store) := by
  have good := stands.good sound
  have outside : ∀ {path : Bytes}, entry.path = path → isDataPath path = false →
      ∀ content, dataFiles [(entry, content)] = [] := by
    rintro _ rfl notData content
    exact dataFiles_of_not_data content notData
  unfold startOtaEntry
  split
  · rename_i path
    have other : entry.path ≠ checksumPath := by rw [path]; decide
    refine .bind (.read (.bind (.require (fun _ => .update ?_) fun _ => good)))
    refine started_pass rfl { stands with } fun content => ?_
    exact stands.pass other (.inl (outside path (by decide) content))
  split
  · rename_i path
    have undigested : run.digests = false := by
      refine Bool.eq_false_iff.mpr fun digests => ?_
      have data := data (stands.sum.1.trans digests)
      rw [path] at data
      exact absurd data (by decide)
    have unnamed : run.nameOf done = checksumOf done := if_neg (by simp [undigested])
    have sum : state.checksumData = checksumOf done := stands.sum.2.trans unnamed
    refine .bind (.require (fun required => .update
      ⟨fun empty => absurd empty required.2.1, fun _ => ?_⟩) fun _ => good)
    refine .checksum rfl path undigested ⟨stands.early, stands.waiting, stands.cleared, ?_⟩
      (by rw [List.append_nil]; exact sum)
    exact ⟨stands.sum.1, unnamed.symm⟩
  split
  · rename_i top
    have other : entry.path ≠ checksumPath ∧ isDataPath entry.path = false := by
      rcases top.1 with path | path <;> rw [path] <;> decide
    refine .update (started_pass rfl stands fun content => ?_)
    exact stands.pass other.1 (.inl (dataFiles_of_not_data content other.2))
  split
  · rename_i path
    exact endsWell_startData sound stands unpacked safe bare (apart path) path
  split
  · rename_i path
    exact endsWell_startApp sound stands path
  · exact .fail good

/-- The data digest is fed before an entry is started, which changes nothing else. -/
theorem endsWell_startEntry (safe : pathIsSafeRelative entry.path = true)
    (bare : entry.kind = .dir → entry.size = 0)
    (apart : isDataPath entry.path = true →
      joined run.options.dataRoot (entry.path.drop (ascii "data/").length) ≠
      run.options.installedChecksumPath) :
    run.EndsWell (run.options.startEntry entry) (fun _ => run.Started done entry)
      (state, store) := by
  have good := stands.good sound
  have goes : ∀ later, viewOf later = viewOf (enterEntry entry state) →
      (later.dataDigest = true → isDataPath entry.path = true) →
      run.EndsWell (if run.options.otaLayout then run.options.startOtaEntry entry
        else run.options.startInstalled entry entry.path) (fun _ => run.Started done entry)
        (later, store) := by
    intro later same data
    have entered : run.Stands done (viewOf later) store.files := by
      rw [same]
      exact { stands with }
    have unpacked : later.pixaData = [] := congrArg InstallView.pixaData same
    rw [if_pos sound.layout]
    exact endsWell_startOtaEntry sound entered unpacked safe bare apart data
  refine .bind (.update (.bind (.bind (.read ?_))))
  split
  · refine .bind (.require (fun kind => .bind (.require (fun _ =>
      .bind (.update ?_)) fun _ => good)) fun _ => good)
    split
    · exact .bind (.require (fun _ => .update (goes _ rfl fun _ => kind.1)) fun _ => good)
    · exact .bind (.require (fun _ => .update (goes _ rfl fun _ => kind.1)) fun _ => good)
  · rename_i undigested
    exact .pure (goes _ rfl fun digests => absurd digests undigested)

end

theorem endsWell_release (good : run.Good store.files) :
    run.EndsWell run.options.releaseEntryBuffers (fun _ after => run.Good after.2.files)
      (state, store) := by
  have closes : ∀ later (under : Storage), under.files = store.files →
      run.EndsWell (do
        closeOutFile state
        assign fun state => { state with outFile := none, pixaData := [] })
        (fun _ after => run.Good after.2.files) (later, under) := by
    intro later under same
    rw [← same] at good
    unfold closeOutFile
    split
    · refine .bind (.ignoring ((endsWell_spared (leaves_probe _) good
        fun _ after closed => .update ?_).mono (fun _ _ => id)
        (fun _ _ good => .update good) fun _ => id))
      rw [← closed] at good
      exact good
    · exact .bind (.pure (.update good))
  refine .bind (.read (.bind ?_))
  unfold abortApp
  split
  · rename_i writer _ chosen
    exact .bind (endsWell_spared (sound.spares chosen).2.2.2 good
      fun _ after same => .update (closes _ after same))
  · exact .pure (closes state store rfl)

end

end TreeRun

end Gizos.Loader
