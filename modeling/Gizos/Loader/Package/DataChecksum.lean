import Gizos.Loader.Package.Entries

/-! # What an accepted data checksum says about the data files

The validator hashes the data files of a package with a manifest one after the other, each as
its path, a zero, its content and a zero, and compares the digest with the checksum entry.
Contents may hold zeros, so the hashed bytes alone do not say where a file ends: the checksum
of an accepted package determines its data files exactly up to the sizes of the files.
-/
namespace Gizos.Loader

open Gizos.Bundle

variable {entry : Entry} {after v taken ended begun : LayoutValidator} {content : Bytes}

/-- The data files of a package, as paths and contents in archive order. -/
def dataFiles (entries : List (Entry × Bytes)) : List (Bytes × Bytes) :=
  entries.filterMap fun entry =>
    if entry.1.kind = .file ∧ isDataPath entry.1.path then some (entry.1.path, entry.2) else none

/-- The bytes hashed for one data file. -/
def encodeFile (file : Bytes × Bytes) : Bytes := file.1 ++ 0 :: (file.2 ++ [0])

/-- The bytes hashed for the data files of a package. -/
def encodeData (files : List (Bytes × Bytes)) : Bytes := files.flatMap encodeFile

theorem dataFiles_file (content : Bytes) (file : entry.kind = .file)
    (data : isDataPath entry.path = true) :
    dataFiles [(entry, content)] = [(entry.path, content)] := by
  simp [dataFiles, file, data]

theorem dataFiles_other (content : Bytes)
    (other : ¬(entry.kind = .file ∧ isDataPath entry.path = true)) :
    dataFiles [(entry, content)] = [] := by
  simp only [dataFiles, List.filterMap_cons, if_neg other, List.filterMap_nil]

/-- The hashed bytes of lists of files put together. -/
theorem encodeData_append (first second : List (Bytes × Bytes)) :
    encodeData (first ++ second) = encodeData first ++ encodeData second :=
  List.flatMap_append

/-- Up to the first zero, a string is determined. -/
theorem string_append_inj {left right leftRest rightRest : Bytes} (leftString : 0 ∉ left)
    (rightString : 0 ∉ right) (same : left ++ 0 :: leftRest = right ++ 0 :: rightRest) :
    left = right ∧ leftRest = rightRest := by
  induction left generalizing right with
  | nil =>
    cases right with
    | nil => exact ⟨rfl, (List.cons.inj same).2⟩
    | cons byte right =>
      have zero : 0 = byte := (List.cons.inj same).1
      exact absurd (zero ▸ List.mem_cons_self) rightString
  | cons byte left ih =>
    cases right with
    | nil =>
      have zero : byte = 0 := (List.cons.inj same).1
      exact absurd (zero ▸ List.mem_cons_self) leftString
    | cons other right =>
      obtain ⟨first, rest⟩ := List.cons.inj same
      have later := ih (fun member => leftString (List.mem_cons_of_mem _ member))
        (fun member => rightString (List.mem_cons_of_mem _ member)) rest
      exact ⟨by rw [first, later.1], later.2⟩

/-- Every path of a list of files is a string. -/
def PathsAreStrings (files : List (Bytes × Bytes)) : Prop := ∀ file ∈ files, 0 ∉ file.1

/-- With the sizes known, the hashed bytes determine the files. -/
theorem encodeData_inj {left right : List (Bytes × Bytes)} (leftPaths : PathsAreStrings left)
    (rightPaths : PathsAreStrings right) (sizes : left.map (·.2.length) = right.map (·.2.length))
    (same : encodeData left = encodeData right) : left = right := by
  induction left generalizing right with
  | nil =>
    cases right with
    | nil => rfl
    | cons file right => cases sizes
  | cons file left ih =>
    cases right with
    | nil => cases sizes
    | cons other right =>
      obtain ⟨path, content⟩ := file
      obtain ⟨path', content'⟩ := other
      obtain ⟨size, laterSizes⟩ := List.cons.inj sizes
      have front : path ++ 0 :: (content ++ [0] ++ encodeData left) =
          path' ++ 0 :: (content' ++ [0] ++ encodeData right) := by
        simpa [encodeData, encodeFile] using same
      have path_string : 0 ∉ path := leftPaths _ List.mem_cons_self
      have path_string' : 0 ∉ path' := rightPaths _ List.mem_cons_self
      obtain ⟨path_eq, rest⟩ := string_append_inj path_string path_string' front
      have length : (content ++ [0]).length = (content' ++ [0]).length := by simpa using size
      obtain ⟨ends, later⟩ := List.append_inj rest length
      have content_eq : content = content' := List.append_cancel_right ends
      have tail := ih (fun file member => leftPaths file (List.mem_cons_of_mem _ member))
        (fun file member => rightPaths file (List.mem_cons_of_mem _ member))
        laterSizes later
      rw [path_eq, content_eq, tail]

/-- What the validator keeps about the data digest. -/
structure Ledger where
  /-- The package starts with a manifest. -/
  manifestSeen : Bool
  /-- The checksum entry is complete. -/
  checksumSeen : Bool
  /-- Bytes of the checksum entry. -/
  checksumData : Bytes
  /-- The recorded checksum. -/
  recorded : Bytes
  /-- The data digest is running. -/
  started : Bool
  /-- The data digest matched. -/
  verified : Bool
  /-- The application entry was seen. -/
  appSeen : Bool
  /-- The package has no manifest. -/
  legacy : Bool
  /-- What the running digest has been fed. -/
  hashed : Bytes

namespace LayoutValidator

/-- The ledger of a validator. -/
def ledger (v : LayoutValidator) : Ledger where
  manifestSeen := v.manifestSeen
  checksumSeen := v.checksumSeen
  checksumData := v.checksumData
  recorded := v.inspection.dataChecksum
  started := v.dataDigestStarted
  verified := v.dataDigestVerified
  appSeen := v.appSeen
  legacy := v.inspection.legacy
  hashed := v.hashed

end LayoutValidator

/-- What one entry can do to the ledger. -/
inductive Accounts (digest : DigestApi) (entry : Entry) (content : Bytes) :
    Ledger → Ledger → Prop where
  | manifest {l : Ledger} (path : entry.path = manifestPath) :
    Accounts digest entry content l { l with manifestSeen := true }
  /-- The checksum entry, of which there is one. -/
  | checksum {l : Ledger} (path : entry.path = checksumPath) (first : l.checksumSeen = false) :
    Accounts digest entry content l { l with
      checksumSeen := true
      checksumData := l.checksumData ++ content
      recorded := l.checksumData ++ content
      started := l.manifestSeen
      hashed := if l.manifestSeen then [] else l.hashed }
  /-- A data file that is hashed. -/
  | file {l : Ledger} (file : entry.kind = .file) (data : isDataPath entry.path = true)
    (running : l.started = true) :
    Accounts digest entry content l
      { l with hashed := l.hashed ++ encodeFile (entry.path, content) }
  /-- A data file of a package without a manifest. -/
  | unhashed {l : Ledger} (data : isDataPath entry.path = true) (idle : l.started = false)
    (seen : l.checksumSeen = true) (bare : l.manifestSeen = false) :
    Accounts digest entry content l l
  | directory {l : Ledger} (dir : entry.kind = .dir) : Accounts digest entry content l l
  /-- The application of a package with a manifest, where the data digest is compared. -/
  | app {l : Ledger} (path : isAppPath entry.path = true) (running : l.started = true)
    (hashed : Bytes) (compared : l.checksumData.take 64 = digest.hex l.hashed) :
    Accounts digest entry content l { l with
      appSeen := true
      started := false
      verified := true
      hashed := hashed }
  /-- The application of a package without a manifest. -/
  | legacyApp {l : Ledger} (path : isAppPath entry.path = true) (bare : l.manifestSeen = false)
    (hashed : Bytes) :
    Accounts digest entry content l { l with appSeen := true, legacy := true, hashed := hashed }

theorem not_app_of_data {path : Bytes} (data : isDataPath path = true) :
    isAppPath path = false := by
  obtain ⟨rest, rfl⟩ := List.isPrefixOf_iff_prefix.mp data
  rfl

theorem countData_kept {inspection after : Inspection}
    (counted : countData inspection entry = .ok after) :
    after.dataChecksum = inspection.dataChecksum ∧ after.legacy = inspection.legacy := by
  unfold countData at counted
  split at counted
  · cases counted
    exact ⟨rfl, rfl⟩
  split at counted
  · split at counted
    · cases counted
    · cases counted
      exact ⟨rfl, rfl⟩
  · split at counted
    · cases counted
    · cases counted
      exact ⟨rfl, rfl⟩

namespace LayoutValidator

variable {digest : DigestApi} {appEntryPath : Bytes}

section

variable (absorbed : absorb v content = .ok taken)
  (finished : finishContent digest { taken with remaining := 0 } = .ok ended)

include absorbed finished

theorem content_manifest (path : v.entry.path = manifestPath) : ended.ledger = v.ledger := by
  unfold absorb at absorbed
  rw [if_pos path] at absorbed
  split at absorbed
  · cases absorbed
  cases absorbed
  unfold finishContent at finished
  rw [if_pos path] at finished
  split at finished
  · cases finished
  split at finished
  · cases finished
    rfl
  · cases finished

theorem content_checksum (path : v.entry.path = checksumPath) :
    ended.ledger = { v.ledger with
      checksumSeen := true
      checksumData := v.checksumData ++ content
      recorded := v.checksumData ++ content
      started := v.manifestSeen
      hashed := if v.manifestSeen then [] else v.hashed } := by
  have other : v.entry.path ≠ manifestPath := by rw [path]; decide
  unfold absorb at absorbed
  rw [if_neg other, if_pos path] at absorbed
  split at absorbed
  · cases absorbed
  cases absorbed
  unfold finishContent finishChecksum at finished
  rw [if_neg other, if_pos path] at finished
  split at finished
  · cases finished
  · cases finished
    rfl

/-- The content of a data file is hashed with a zero behind it, if the digest runs. -/
theorem content_data (notManifest : v.entry.path ≠ manifestPath)
    (notChecksum : v.entry.path ≠ checksumPath) (data : isDataPath v.entry.path = true) :
    ended.ledger =
      if v.dataDigestStarted = true ∧ v.entry.kind = .file then
        { v.ledger with hashed := v.hashed ++ content ++ [0] }
      else v.ledger := by
  have notApp := not_app_of_data data
  unfold absorb at absorbed
  rw [if_neg notManifest, if_neg notChecksum] at absorbed
  split_ifs with running
  · rw [if_pos ⟨running.1, data, running.2⟩] at absorbed
    cases absorbed
    unfold finishContent at finished
    rw [if_neg notManifest, if_neg notChecksum, if_pos ⟨data, running.2, running.1⟩] at finished
    cases finished
    rfl
  · rw [if_neg (fun hashing => running ⟨hashing.1, hashing.2.2⟩),
      if_neg (fun image => by simp [notApp] at image)] at absorbed
    cases absorbed
    unfold finishContent at finished
    rw [if_neg notManifest, if_neg notChecksum,
      if_neg (fun hashing => running ⟨hashing.2.2, hashing.2.1⟩),
      if_neg (fun image => by simp [notApp] at image)] at finished
    cases finished
    rfl

/-- The content of the application only feeds the image digest. -/
theorem content_app (notManifest : v.entry.path ≠ manifestPath)
    (notChecksum : v.entry.path ≠ checksumPath) (notData : isDataPath v.entry.path = false) :
    ∃ hashed, ended.ledger = { v.ledger with hashed := hashed } := by
  have entry : taken.entry = v.entry := congrArg (·.2.2.2.1) (absorb_position absorbed).1
  have ends : ended.ledger = taken.ledger := by
    unfold finishContent at finished
    rw [entry, if_neg notManifest, if_neg notChecksum,
      if_neg (fun hashing => by simp [notData] at hashing)] at finished
    split at finished
    · split at finished
      · cases finished
      · cases finished
        rfl
    · cases finished
      rfl
  unfold absorb at absorbed
  rw [if_neg notManifest, if_neg notChecksum,
    if_neg (fun hashing => by simp [notData] at hashing)] at absorbed
  split at absorbed
  · cases absorbed
    exact ⟨_, ends⟩
  · cases absorbed
    exact ⟨_, ends⟩

end

/-- The path of a data file is hashed with a zero behind it, if the package has a manifest. -/
theorem hashDataPath_ledger (path : hashDataPath v entry = .ok after) :
    (entry.kind = .file → v.manifestSeen = true → v.dataDigestStarted = true) ∧
    after.entry = v.entry ∧
    after.ledger =
      if entry.kind = .file ∧ v.manifestSeen then
        { v.ledger with
          hashed := v.hashed ++ entry.path ++ [0] ++ (if entry.size = 0 then [0] else []) }
      else v.ledger := by
  unfold hashDataPath at path
  by_cases file : entry.kind = .file ∧ v.manifestSeen
  · rw [if_pos file] at path ⊢
    split at path
    · cases path
    · rename_i accepted
      cases path
      have running : v.dataDigestStarted = true := by
        by_contra idle
        exact accepted (.inl idle)
      exact ⟨fun _ _ => running, rfl, rfl⟩
  · rw [if_neg file] at path ⊢
    cases path
    exact ⟨fun kind manifest => absurd ⟨kind, manifest⟩ file, rfl, rfl⟩

theorem startData_ledger (begins : startData v entry = .ok begun) :
    v.checksumSeen = true ∧
    (entry.kind = .file → v.manifestSeen = true → v.dataDigestStarted = true) ∧
    begun.entry = v.entry ∧
    begun.ledger =
      if entry.kind = .file ∧ v.manifestSeen then
        { v.ledger with
          hashed := v.hashed ++ entry.path ++ [0] ++ (if entry.size = 0 then [0] else []) }
      else v.ledger := by
  unfold startData at begins
  split at begins
  · cases begins
  rename_i seen
  split at begins
  · cases begins
  split at begins
  · cases begins
  obtain ⟨hashed, path, rest⟩ := bind_eq_ok.mp begins
  obtain ⟨inspection, counted, ending⟩ := bind_eq_ok.mp rest
  obtain ⟨running, same, ledger⟩ := hashDataPath_ledger path
  have kept := countData_kept counted
  have whole : begun.ledger = hashed.ledger := by
    cases ending
    unfold LayoutValidator.ledger
    rw [kept.1, kept.2]
  have sameEntry : begun.entry = hashed.entry := by
    cases ending
    rfl
  exact ⟨by simpa using seen, running, sameEntry.trans same, whole.trans ledger⟩

theorem startApp_ledger (begins : startApp digest appEntryPath v entry = .ok begun) :
    begun.entry = v.entry ∧
    ((v.dataDigestStarted = true ∧ v.checksumData.take 64 = digest.hex v.hashed ∧
        begun.ledger = { v.ledger with
          appSeen := true, started := false, verified := true, hashed := [] }) ∨
      (v.manifestSeen = false ∧
        begun.ledger = { v.ledger with appSeen := true, legacy := true })) := by
  unfold startApp at begins
  split at begins
  · cases begins
  dsimp only at begins
  split at begins
  · split at begins
    · cases begins
    · rename_i accepted
      cases begins
      have running : v.dataDigestStarted = true := by
        by_contra idle
        exact accepted (.inr (.inl idle))
      have compared : v.checksumData.take 64 = digest.hex v.hashed := by
        by_contra differs
        exact accepted (.inr (.inr differs))
      exact ⟨rfl, .inl ⟨running, compared, rfl⟩⟩
  · rename_i bare
    cases begins
    exact ⟨rfl, .inr ⟨by simpa using bare, rfl⟩⟩

/-- How the content of a started entry ends: there is none, or it is taken and finished. -/
def Ends (digest : DigestApi) (entry : Entry) (content : Bytes) (begun after : LayoutValidator) :
    Prop :=
  (entry.size = 0 ∧ after.ledger = begun.ledger) ∨
    ∃ taken ended, absorb begun content = .ok taken ∧
      finishContent digest { taken with remaining := 0 } = .ok ended ∧
      after.ledger = ended.ledger ∧ 0 < entry.size

theorem Ends.unhashed (ends : Ends digest entry content begun after)
    (current : begun.entry = entry) (notManifest : entry.path ≠ manifestPath)
    (notChecksum : entry.path ≠ checksumPath) (data : isDataPath entry.path = true)
    (idle : ¬(begun.dataDigestStarted = true ∧ entry.kind = .file)) :
    after.ledger = begun.ledger := by
  obtain ⟨-, same⟩ | ⟨taken, ended, absorbed, finished, final, -⟩ := ends
  · exact same
  · subst current
    have content := content_data absorbed finished notManifest notChecksum data
    rw [if_neg idle] at content
    exact final.trans content

theorem Ends.hashed (ends : Ends digest entry content begun after) (current : begun.entry = entry)
    (notManifest : entry.path ≠ manifestPath) (notChecksum : entry.path ≠ checksumPath)
    (data : isDataPath entry.path = true) (whole : content.length = entry.size)
    (kind : entry.kind = .file) (running : v.dataDigestStarted = true)
    (path : begun.ledger = { v.ledger with
      hashed := v.hashed ++ entry.path ++ [0] ++ (if entry.size = 0 then [0] else []) }) :
    after.ledger = { v.ledger with hashed := v.hashed ++ encodeFile (entry.path, content) } := by
  obtain ⟨empty, same⟩ | ⟨taken, ended, absorbed, finished, final, positive⟩ := ends
  · have nothing : content = [] := List.length_eq_zero_iff.mp (whole.trans empty)
    rw [same, path, if_pos empty, nothing]
    simp [encodeFile]
  · subst current
    have begunRunning : begun.dataDigestStarted = true :=
      (congrArg Ledger.started path).trans running
    have begunHashed : begun.hashed = v.hashed ++ begun.entry.path ++ [0] := by
      have fed : begun.hashed = _ := congrArg Ledger.hashed path
      rw [if_neg (by omega)] at fed
      simpa using fed
    have content := content_data absorbed finished notManifest notChecksum data
    rw [if_pos ⟨begunRunning, kind⟩, begunHashed, path] at content
    rw [final, content]
    simp [encodeFile]

/-- A data entry is hashed as a file, or leaves the ledger alone. -/
theorem data_accounts (tied : v.dataDigestStarted = true → v.manifestSeen = true)
    (notManifest : entry.path ≠ manifestPath) (notChecksum : entry.path ≠ checksumPath)
    (data : isDataPath entry.path = true) (whole : content.length = entry.size)
    (current : v.entry = entry) (begins : startData v entry = .ok begun)
    (ends : Ends digest entry content begun after) :
    Accounts digest entry content v.ledger after.ledger := by
  obtain ⟨seen, running, same, ledger⟩ := startData_ledger begins
  have begunEntry := same.trans current
  by_cases file : entry.kind = .file ∧ v.manifestSeen = true
  · have started := running file.1 file.2
    rw [if_pos file] at ledger
    rw [ends.hashed begunEntry notManifest notChecksum data whole file.1 started ledger]
    exact .file file.1 data started
  · rw [if_neg file] at ledger
    have idle : ¬(begun.dataDigestStarted = true ∧ entry.kind = .file) := by
      intro hashing
      have started : v.dataDigestStarted = true :=
        (congrArg Ledger.started ledger).symm.trans hashing.1
      exact file ⟨hashing.2, tied started⟩
    have unchanged := (ends.unhashed begunEntry notManifest notChecksum data idle).trans ledger
    rw [unchanged]
    cases kind : entry.kind with
    | dir => exact .directory kind
    | file =>
      have bare : v.manifestSeen = false := by simpa [kind] using file
      have idle : v.dataDigestStarted = false := by
        by_contra started
        exact absurd (tied (by simpa using started)) (by simp [bare])
      exact .unhashed data idle seen bare

theorem app_accounts (notManifest : entry.path ≠ manifestPath)
    (notChecksum : entry.path ≠ checksumPath) (notData : isDataPath entry.path = false)
    (app : isAppPath entry.path = true) (current : v.entry = entry)
    (begins : startApp digest appEntryPath v entry = .ok begun)
    (ends : Ends digest entry content begun after) :
    Accounts digest entry content v.ledger after.ledger := by
  obtain ⟨same, effect⟩ := startApp_ledger begins
  have begunEntry := same.trans current
  have ending : ∃ hashed, after.ledger = { begun.ledger with hashed := hashed } := by
    obtain ⟨-, same⟩ | ⟨taken, ended, absorbed, finished, final, -⟩ := ends
    · exact ⟨begun.hashed, same⟩
    · subst begunEntry
      rw [final]
      exact content_app absorbed finished notManifest notChecksum notData
  obtain ⟨hashed, ending⟩ := ending
  rw [ending]
  obtain ⟨running, compared, ledger⟩ | ⟨bare, ledger⟩ := effect
  · rw [ledger]
    exact .app app running hashed compared
  · rw [ledger]
    exact .legacyApp app bare hashed

theorem manifest_accounts {index : Nat} (path : entry.path = manifestPath)
    (current : v.entry = entry) (begins : startManifest v index entry = .ok begun)
    (ends : Ends digest entry content begun after) :
    Accounts digest entry content v.ledger after.ledger := by
  unfold startManifest at begins
  split at begins
  · cases begins
  cases begins
  have ending : after.ledger = { v.ledger with manifestSeen := true } := by
    obtain ⟨-, same⟩ | ⟨taken, ended, absorbed, finished, final, -⟩ := ends
    · exact same
    · subst current
      have kept := content_manifest absorbed finished (by exact path)
      exact final.trans kept
  rw [ending]
  exact .manifest path

theorem checksum_accounts {index : Nat} (path : entry.path = checksumPath)
    (current : v.entry = entry) (begins : startChecksum v index entry = .ok begun)
    (ends : Ends digest entry content begun after) :
    Accounts digest entry content v.ledger after.ledger := by
  unfold startChecksum at begins
  split at begins
  · cases begins
  rename_i accepted
  split at begins
  · cases begins
  cases begins
  have first : v.checksumSeen = false := by
    by_contra seen
    exact accepted (.inl (by simpa using seen))
  obtain ⟨empty, -⟩ | ⟨taken, ended, absorbed, finished, final, -⟩ := ends
  · exact absurd (.inr (.inr (.inl empty))) accepted
  · subst current
    rw [final, content_checksum absorbed finished path]
    exact .checksum path first

/-- Every whole entry that the validator takes is one of the kinds of `Accounts`. -/
theorem entryStep_accounts {block : Bytes}
    (tied : v.dataDigestStarted = true → v.manifestSeen = true) (header : HeaderBlock block entry)
    (whole : content.length = entry.size)
    (stepped : entryStep digest appEntryPath v (entry, content) = .ok after) :
    Accounts digest entry content v.ledger after.ledger := by
  obtain ⟨begun, start, ends⟩ := entryStep_inv header stepped
  replace ends : Ends digest entry content begun after := by
    obtain ⟨empty, rfl⟩ | ⟨positive, taken, ended, absorbed, finished, rfl⟩ := ends
    · exact .inl ⟨empty, rfl⟩
    · exact .inr ⟨taken, ended, absorbed, finished, rfl, positive⟩
  -- Starting an entry first moves the stream position, which the ledger does not show.
  unfold startEntry at start
  extract_lets _ opened at start
  have same : opened.ledger = v.ledger := rfl
  have current : opened.entry = entry := rfl
  clear_value opened
  replace tied : opened.dataDigestStarted = true → opened.manifestSeen = true := by
    intro started
    have before : v.dataDigestStarted = true := (congrArg Ledger.started same).symm.trans started
    exact (congrArg Ledger.manifestSeen same).trans (tied before)
  rw [← same]
  split_ifs at start with manifest checksum directory data app
  · exact manifest_accounts manifest current start ends
  · exact checksum_accounts checksum current start ends
  · have empty := (tarParseHeader_safe header.parsed).2 directory.2
    have ending : after.ledger = opened.ledger := by
      obtain ⟨-, unchanged⟩ | ⟨_, _, _, _, _, positive⟩ := ends
      · rw [unchanged]
        unfold startDirectory at start
        split_ifs at start
        · cases start; rfl
        · cases start; rfl
      · omega
    rw [ending]
    exact .directory directory.2
  · exact data_accounts tied manifest checksum data whole current start ends
  · exact app_accounts manifest checksum (by simpa using data) app current start ends

end LayoutValidator

/-- The ledger agrees with the data files seen so far. -/
structure Balanced (digest : DigestApi) (l : Ledger) (files : List (Bytes × Bytes)) : Prop where
  early : l.checksumSeen = false → files = [] ∧ l.started = false ∧ l.verified = false
  /-- The digest runs only for a package with a manifest, over exactly the data files. -/
  running : l.started = true → l.manifestSeen = true ∧ l.verified = false ∧
    l.hashed = encodeData files
  /-- The digest that matched was that of the data files. -/
  matched : l.verified = true → l.manifestSeen = true ∧
    l.checksumData.take 64 = digest.hex (encodeData files)
  recorded : l.checksumSeen = true → l.recorded = l.checksumData
  settled : l.appSeen = true → l.verified = true ∨ l.legacy = true

variable {digest : DigestApi}

theorem dataFiles_of_not_data (content : Bytes) (other : isDataPath entry.path = false) :
    dataFiles [(entry, content)] = [] :=
  dataFiles_other content fun data => by simp [other] at data

theorem Balanced.account {l after : Ledger} {files : List (Bytes × Bytes)}
    (balanced : Balanced digest l files) (accounts : Accounts digest entry content l after) :
    Balanced digest after (files ++ dataFiles [(entry, content)]) := by
  obtain ⟨early, running, matched, recorded, settled⟩ := balanced
  cases accounts with
  | manifest path =>
    rw [dataFiles_of_not_data content (by rw [path]; decide), List.append_nil]
    exact ⟨early, fun started => ⟨rfl, (running started).2⟩,
      fun verified => ⟨rfl, (matched verified).2⟩, recorded, settled⟩
  | checksum path first =>
    obtain ⟨none, -, unverified⟩ := early first
    rw [dataFiles_of_not_data content (by rw [path]; decide), none]
    refine ⟨nofun, ?_, ?_, fun _ => rfl, settled⟩
    · intro started
      exact ⟨started, unverified, if_pos started⟩
    · intro verified
      exact absurd (unverified.symm.trans verified) nofun
  | file file data started =>
    obtain ⟨manifest, unverified, hashed⟩ := running started
    rw [dataFiles_file content file data]
    refine ⟨?_, ?_, ?_, recorded, settled⟩
    · intro unseen
      exact absurd ((early unseen).2.1.symm.trans started) nofun
    · intro _
      refine ⟨manifest, unverified, ?_⟩
      rw [encodeData_append, ← hashed]
      simp [encodeData]
    · intro verified
      exact absurd (unverified.symm.trans verified) nofun
  | unhashed data idle seen bare =>
    refine ⟨?_, ?_, ?_, recorded, settled⟩
    · intro unseen
      exact absurd (unseen.symm.trans seen) nofun
    · intro started
      exact absurd (idle.symm.trans started) nofun
    · intro verified
      exact absurd (bare.symm.trans (matched verified).1) nofun
  | directory dir =>
    rw [dataFiles_other content (fun data => by simp [dir] at data), List.append_nil]
    exact ⟨early, running, matched, recorded, settled⟩
  | app path started hashed compared =>
    obtain ⟨manifest, -, fed⟩ := running started
    have other : isDataPath entry.path = false := by
      by_contra data
      exact absurd (not_app_of_data (by simpa using data)) (by simp [path])
    rw [dataFiles_of_not_data content other, List.append_nil]
    refine ⟨?_, nofun, fun _ => ⟨manifest, ?_⟩, recorded, fun _ => .inl rfl⟩
    · intro unseen
      exact absurd ((early unseen).2.1.symm.trans started) nofun
    · rw [← fed]
      exact compared
  | legacyApp path bare hashed =>
    have other : isDataPath entry.path = false := by
      by_contra data
      exact absurd (not_app_of_data (by simpa using data)) (by simp [path])
    rw [dataFiles_of_not_data content other, List.append_nil]
    refine ⟨early, ?_, matched, recorded, fun _ => .inr rfl⟩
    intro started
    exact absurd (bare.symm.trans (running started).1) nofun

theorem Balanced.run {appEntryPath : Bytes} {entries : List (Entry × Bytes)}
    {files : List (Bytes × Bytes)} (balanced : Balanced digest v.ledger files)
    (parsed : ∀ entry ∈ entries, (∃ block, HeaderBlock block entry.1) ∧
      entry.2.length = entry.1.size)
    (ran : entries.foldlM (LayoutValidator.entryStep digest appEntryPath) v = .ok after) :
    Balanced digest after.ledger (files ++ dataFiles entries) := by
  induction entries generalizing v files with
  | nil =>
    cases ran
    simpa [dataFiles] using balanced
  | cons entry entries ih =>
    obtain ⟨next, stepped, rest⟩ := bind_eq_ok.mp ran
    obtain ⟨⟨block, header⟩, whole⟩ := parsed entry List.mem_cons_self
    have tied : v.dataDigestStarted = true → v.manifestSeen = true :=
      fun started => (balanced.running started).1
    have accounts := LayoutValidator.entryStep_accounts tied header whole stepped
    have later := ih (balanced.account accounts)
      (fun other member => parsed other (List.mem_cons_of_mem _ member)) rest
    have split : dataFiles (entry :: entries) = dataFiles [entry] ++ dataFiles entries :=
      List.filterMap_append (l := [entry])
    rw [split, ← List.append_assoc]
    exact later

/-- What acceptance says: the stream has entries, and the ledger at its end is balanced. -/
theorem validateLayout_balanced {appEntryPath : Bytes} {pieces : List Bytes}
    {inspection : Inspection}
    (accepted : validateLayout digest appEntryPath pieces = .ok inspection) :
    ∃ entries l, Contents pieces.flatten entries ∧ Balanced digest l (dataFiles entries) ∧
      l.checksumSeen = true ∧ l.appSeen = true ∧ l.recorded = inspection.dataChecksum ∧
      l.legacy = inspection.legacy := by
  obtain ⟨v, fed, rest⟩ := bind_eq_ok.mp accepted
  obtain ⟨⟨⟩, finished, rest⟩ := bind_eq_ok.mp rest
  have kept : inspection = v.inspection := (Except.ok.inj rest).symm
  obtain ⟨entries, last, contents, folded, state⟩ :=
    LayoutValidator.accepted_contents fed finished
  have initial : Balanced digest LayoutValidator.start.ledger [] :=
    ⟨fun _ => ⟨rfl, rfl, rfl⟩, nofun, nofun, nofun, nofun⟩
  have balanced := initial.run contents.headers folded
  have same : v.ledger = last.ledger := by rw [state]; rfl
  have seen : v.checksumSeen = true ∧ v.appSeen = true := by
    unfold LayoutValidator.finish at finished
    split at finished
    · cases finished
    · rename_i complete
      simp only [not_or, not_not] at complete
      exact ⟨complete.2.1, complete.2.2.1⟩
  refine ⟨entries, v.ledger, contents, ?_, seen.1, seen.2, ?_, ?_⟩
  · rw [same]
    exact balanced
  · rw [kept]
    rfl
  · rw [kept]
    rfl

/-- A package the layout validator accepted, with the entries its stream contains. -/
structure AcceptedPackage (digest : DigestApi) (appEntryPath : Bytes) where
  /-- The decompressed package, in the pieces it was fed in. -/
  pieces : List Bytes
  /-- What the validator reported. -/
  inspection : Inspection
  /-- The entries of the archive. -/
  entries : List (Entry × Bytes)
  accepted : validateLayout digest appEntryPath pieces = .ok inspection
  /-- The entries are those of the stream. -/
  contents : Contents pieces.flatten entries

namespace AcceptedPackage

variable {appEntryPath appEntryPath' : Bytes} (package : AcceptedPackage digest appEntryPath)

/-- The data files of a package. -/
def files : List (Bytes × Bytes) :=
  dataFiles package.entries

/-- The sizes of the data files, in archive order. -/
def sizes : List Nat :=
  package.files.map (·.2.length)

theorem paths : PathsAreStrings package.files := by
  intro file member
  obtain ⟨entry, present, found⟩ := List.mem_filterMap.mp member
  obtain ⟨⟨block, header⟩, -⟩ := package.contents.headers entry present
  split at found
  · cases found
    exact tarParseHeader_string header.parsed
  · cases found

theorem checksum_eq (manifest : package.inspection.legacy = false) :
    package.inspection.dataChecksum.take 64 = digest.hex (encodeData package.files) := by
  obtain ⟨entries, l, contents, balanced, seen, app, recorded, legacy⟩ :=
    validateLayout_balanced package.accepted
  have same : entries = package.entries := contents.unique package.contents
  have verified : l.verified = true := by
    obtain verified | old := balanced.settled app
    · exact verified
    · rw [legacy, manifest] at old
      cases old
  rw [← recorded, balanced.recorded seen, (balanced.matched verified).2, same]
  rfl

/-- No two of the byte strings hashed for two packages collide. -/
def CollisionFree (left : AcceptedPackage digest appEntryPath)
    (right : AcceptedPackage digest appEntryPath') : Prop :=
  Set.InjOn digest.hash {encodeData left.files, encodeData right.files}

/-- Equal checksums of two packages with a manifest mean equal hashed bytes. -/
theorem encodeData_eq {left : AcceptedPackage digest appEntryPath}
    {right : AcceptedPackage digest appEntryPath'}
    (same : left.inspection.dataChecksum = right.inspection.dataChecksum)
    (collisionFree : CollisionFree left right) (manifest : left.inspection.legacy = false)
    (manifest' : right.inspection.legacy = false) :
    encodeData left.files = encodeData right.files := by
  have texts : digest.hex (encodeData left.files) = digest.hex (encodeData right.files) := by
    rw [← left.checksum_eq manifest, ← right.checksum_eq manifest', same]
  exact collisionFree (by simp) (by simp) (digestToHex_inj texts)

/-- Packages that hash the same bytes cannot collide. -/
theorem collisionFree_of_eq {left : AcceptedPackage digest appEntryPath}
    {right : AcceptedPackage digest appEntryPath'}
    (same : encodeData left.files = encodeData right.files) : CollisionFree left right := by
  unfold CollisionFree
  rw [same]
  simp

/-- Two accepted packages with equal checksums have the same data files exactly when the sizes
of their files agree in order and, should one of them be a legacy package, whose checksum is
never compared with its data, the hashed bytes agree as well. -/
theorem files_eq_iff (left : AcceptedPackage digest appEntryPath)
    (right : AcceptedPackage digest appEntryPath')
    (same : left.inspection.dataChecksum = right.inspection.dataChecksum)
    (collisionFree : CollisionFree left right) :
    left.files = right.files ↔
      left.sizes = right.sizes ∧
        (left.inspection.legacy = true ∨ right.inspection.legacy = true →
          encodeData left.files = encodeData right.files) := by
  constructor
  · intro files
    exact ⟨by unfold sizes; rw [files], fun _ => by rw [files]⟩
  · rintro ⟨sizes, unverified⟩
    have hashed : encodeData left.files = encodeData right.files := by
      by_cases legacy : left.inspection.legacy = true ∨ right.inspection.legacy = true
      · exact unverified legacy
      · simp only [not_or, Bool.not_eq_true] at legacy
        exact encodeData_eq same collisionFree legacy.1 legacy.2
    exact encodeData_inj left.paths right.paths sizes hashed

/-- A digest for examples: a polynomial in the bytes. -/
def sampleDigest : DigestApi where
  hash input :=
    Codec.leBytes 32 (input.foldl (fun sum byte => (sum * 257 + byte.toNat + 1) % 2 ^ 256) 7)
  size _ := Codec.leBytes_length _ _

/-- The application path of the examples. -/
def sampleAppPath : Bytes := ascii "app/firmware.bin"

/-- A package with these data files and an image of four bytes. -/
def samplePackage (files : List (Bytes × Bytes)) (image : Bytes) : Bytes :=
  let manifest := ascii "format=1\nrole=app\nboard=b\ntarget=t\nversion=v\nimage_size=4\n" ++
    ascii "image_sha256=" ++ sampleDigest.hex image ++ [10]
  fileArchive ((manifestPath, manifest) ::
    (checksumPath, sampleDigest.hex (encodeData files)) :: files ++ [(sampleAppPath, image)])

/-- Whether the validator accepts an example and reports its checksum. -/
def sampleAccepted (files : List (Bytes × Bytes)) (image : Bytes) : Bool :=
  match validateLayout sampleDigest sampleAppPath [samplePackage files image],
      listEntries 8 0 (samplePackage files image) with
  | .ok inspection, some entries =>
    inspection.legacy = false ∧ inspection.dataChecksum = sampleDigest.hex (encodeData files) ∧
      dataFiles entries = files
  | _, _ => false

theorem exists_of_sampleAccepted {files : List (Bytes × Bytes)} {image : Bytes}
    (accepted : sampleAccepted files image = true) :
    ∃ package : AcceptedPackage sampleDigest sampleAppPath, package.files = files ∧
      package.pieces = [samplePackage files image] ∧ package.inspection.legacy = false ∧
      package.inspection.dataChecksum = sampleDigest.hex (encodeData files) := by
  unfold sampleAccepted at accepted
  split at accepted
  · rename_i inspection entries valid listed
    obtain ⟨legacy, checksum, same⟩ := of_decide_eq_true accepted
    have contents : Contents [samplePackage files image].flatten entries := by
      rw [List.flatten_singleton]
      exact listEntries_contains (by decide) listed
    exact ⟨⟨_, inspection, entries, valid, contents⟩, same, rfl, legacy, checksum⟩
  · cases accepted

/-- One file whose content holds a zero and what looks like a second file. -/
def joinedFiles : List (Bytes × Bytes) :=
  [(ascii "data/a", ascii "X" ++ 0 :: ascii "data/b" ++ 0 :: ascii "Y")]

/-- The two files of which `joinedFiles` has the hashed bytes. -/
def separateFiles : List (Bytes × Bytes) :=
  [(ascii "data/a", ascii "X"), (ascii "data/b", ascii "Y")]

theorem separateFiles_accepted : sampleAccepted separateFiles [1, 2, 3, 4] = true := by
  decide +kernel

/-- Two accepted packages with a manifest, equal checksums and different data files. -/
theorem joined_files_differ :
    ∃ left right : AcceptedPackage sampleDigest sampleAppPath,
      left.inspection.legacy = false ∧ right.inspection.legacy = false ∧
      left.inspection.dataChecksum = right.inspection.dataChecksum ∧ CollisionFree left right ∧
      left.files = joinedFiles ∧ right.files = separateFiles ∧ left.files ≠ right.files := by
  have joined : sampleAccepted joinedFiles [1, 2, 3, 4] = true := by decide +kernel
  have hashed : encodeData joinedFiles = encodeData separateFiles := by decide
  obtain ⟨left, leftFiles, -, leftManifest, leftChecksum⟩ := exists_of_sampleAccepted joined
  obtain ⟨right, rightFiles, -, rightManifest, rightChecksum⟩ :=
    exists_of_sampleAccepted separateFiles_accepted
  refine ⟨left, right, leftManifest, rightManifest, ?_, ?_, leftFiles, rightFiles, ?_⟩
  · rw [leftChecksum, rightChecksum, hashed]
  · exact collisionFree_of_eq (by rw [leftFiles, rightFiles, hashed])
  · rw [leftFiles, rightFiles]
    decide

/-- Two packages with different images, equal checksums and files of equal sizes: their data
files are the same. -/
theorem updated_image_same_files :
    ∃ left right : AcceptedPackage sampleDigest sampleAppPath,
      left.inspection.dataChecksum = right.inspection.dataChecksum ∧ CollisionFree left right ∧
      left.pieces = [samplePackage separateFiles [1, 2, 3, 4]] ∧
      right.pieces = [samplePackage separateFiles [5, 6, 7, 8]] ∧ left.files = right.files := by
  have updated : sampleAccepted separateFiles [5, 6, 7, 8] = true := by decide +kernel
  obtain ⟨left, leftFiles, leftPieces, leftManifest, leftChecksum⟩ :=
    exists_of_sampleAccepted separateFiles_accepted
  obtain ⟨right, rightFiles, rightPieces, rightManifest, rightChecksum⟩ :=
    exists_of_sampleAccepted updated
  have same : left.inspection.dataChecksum = right.inspection.dataChecksum := by
    rw [leftChecksum, rightChecksum]
  have collisionFree : CollisionFree left right :=
    collisionFree_of_eq (by rw [leftFiles, rightFiles])
  have sizes : left.sizes = right.sizes := by
    unfold sizes
    rw [leftFiles, rightFiles]
  have compared : left.inspection.legacy = true ∨ right.inspection.legacy = true →
      encodeData left.files = encodeData right.files := by
    simp [leftManifest, rightManifest]
  have files := (files_eq_iff left right same collisionFree).mpr ⟨sizes, compared⟩
  exact ⟨left, right, same, collisionFree, leftPieces, rightPieces, files⟩

end AcceptedPackage

end Gizos.Loader
