import AcemcpRelay.IndexTool
import AcemcpRelay.SnapshotSteps
import AcemcpRelay.Wire.Bytes

/-!
# The path policy and later normalizations

A path is checked once, against what `validateIndexSourcePath` has normalized,
and normalized again wherever it is stored, looked up or sent. Normalizing
trims first and cleans afterwards, so a cleaned path may begin with white space
or with a drive letter that the first trim did not see. Where what the second
normalization leaves has neither and is not excluded, every later normalization
leaves it as it is, and it is accepted again unchanged; elsewhere it is not.
-/
namespace AcemcpRelay

open Store

/-! ## Segments -/

theorem splitOn_eq (sep : Char) (cs : List Char) : splitOn sep cs = cs.splitOn sep := by
  induction cs with
  | nil => rfl
  | cons c cs ih =>
    rw [List.splitOn_cons_eq_if_modifyHead, splitOn, ih]
    by_cases same : c = sep
    · simp [same]
    · obtain ⟨first, rest, parts⟩ := List.exists_cons_of_ne_nil (List.splitOn_ne_nil sep cs)
      simp [same, parts]

/-- A segment that `path.Clean` keeps. -/
def CleanSegment (segment : List Char) : Prop :=
  segment ≠ [] ∧ segment ≠ ['.'] ∧ segment ≠ ['.', '.']

theorem mem_cleanSegments {segments kept : List (List Char)} {segment : List Char}
    (mem : segment ∈ cleanSegments segments kept) :
    (segment ∈ segments ∧ CleanSegment segment) ∨ segment ∈ kept := by
  induction segments generalizing kept with
  | nil => exact .inr mem
  | cons first rest ih =>
    simp only [cleanSegments] at mem
    split at mem
    · exact (ih mem).imp_left fun found => ⟨List.mem_cons_of_mem first found.1, found.2⟩
    next visible =>
      split at mem
      · rcases ih mem with found | old
        · exact .inl ⟨List.mem_cons_of_mem first found.1, found.2⟩
        · exact .inr (List.mem_of_mem_tail old)
      next notParent =>
        rcases ih mem with found | old
        · exact .inl ⟨List.mem_cons_of_mem first found.1, found.2⟩
        · rcases List.mem_cons.mp old with rfl | old
          · rw [not_or] at visible
            exact .inl ⟨List.mem_cons_self, visible.1, visible.2, notParent⟩
          · exact .inr old

/-- Clean segments are all kept. -/
theorem cleanSegments_of_clean {segments : List (List Char)}
    (clean : ∀ segment ∈ segments, CleanSegment segment) (kept : List (List Char)) :
    cleanSegments segments kept = segments.reverse ++ kept := by
  induction segments generalizing kept with
  | nil => rfl
  | cons first rest ih =>
    obtain ⟨filled, notDot, notParent⟩ := clean first List.mem_cons_self
    rw [cleanSegments, if_neg (by simp [filled, notDot]), if_neg notParent,
      ih fun segment mem => clean segment (List.mem_cons_of_mem first mem)]
    simp

/-- `strings.ReplaceAll(value, "\\", "/")`. -/
def slashed (value : String) : String :=
  String.ofList (value.toList.map fun c => if c = '\\' then '/' else c)

/-- The segments of a normalized path. -/
def pathSegments (value : String) : List (List Char) :=
  (cleanSegments (splitOn '/' (trimSpace (slashed value)).toList) []).reverse

theorem normalizeIndexPath_eq (value : String) :
    normalizeIndexPath value = String.ofList (List.intercalate ['/'] (pathSegments value)) := rfl

theorem backslash_notMem_slashed (value : String) : '\\' ∉ (slashed value).toList := by
  simp only [slashed, String.toList_ofList, List.mem_map]
  rintro ⟨c, -, image⟩
  split at image
  · exact absurd image (by decide)
  next other => exact other image

/-- The segments of a normalized path are clean and have neither kind of slash. -/
theorem mem_pathSegments {value : String} {segment : List Char}
    (mem : segment ∈ pathSegments value) :
    CleanSegment segment ∧ '/' ∉ segment ∧ '\\' ∉ segment := by
  rcases mem_cleanSegments (List.mem_reverse.mp mem) with ⟨listed, clean⟩ | none
  · rw [splitOn_eq] at listed
    obtain ⟨noSlash, part⟩ := Wire.part_of_mem_splitOn listed
    refine ⟨clean, noSlash, fun back => ?_⟩
    -- the characters come from a text in which the backslashes have been replaced
    have inText := (infix_trimChars isSpace (slashed value).toList).subset (by
      simpa [trimSpace] using part back)
    exact backslash_notMem_slashed value inText
  · cases none

/-! ## Normalized paths -/

theorem slashed_of_free {value : String} (free : '\\' ∉ value.toList) : slashed value = value := by
  have kept : (value.toList.map fun c => if c = '\\' then '/' else c) = value.toList := by
    conv_rhs => rw [← List.map_id value.toList]
    refine List.map_congr_left fun c mem => ?_
    have other : c ≠ '\\' := fun same => free (same ▸ mem)
    exact if_neg other
  rw [slashed, kept, String.ofList_toList]

/-- The segments of a normalized path can be read off it. -/
theorem splitOn_normalizeIndexPath {value path : String} (normal : normalizeIndexPath value = path)
    (named : path ≠ "") : splitOn '/' path.toList = pathSegments value := by
  have some : pathSegments value ≠ [] := by
    intro none
    rw [normalizeIndexPath_eq, none] at normal
    exact named normal.symm
  rw [← normal, normalizeIndexPath_eq, String.toList_ofList, splitOn_eq]
  exact List.splitOn_intercalate '/' (fun segment mem => (mem_pathSegments mem).2.1) some

theorem backslash_notMem {value path : String} (normal : normalizeIndexPath value = path)
    (named : path ≠ "") : '\\' ∉ path.toList := by
  intro mem
  rcases @mem_splitOn '/' _ _ mem with same | ⟨part, listed, inside⟩
  · exact absurd same (by decide)
  · rw [splitOn_normalizeIndexPath normal named] at listed
    exact (mem_pathSegments listed).2.2 inside

/-- A normalized path that a trim leaves alone is normalized again to itself. -/
theorem normalizeIndexPath_fixed {value path : String} (normal : normalizeIndexPath value = path)
    (named : path ≠ "") (trimmed : trimSpace path = path) : normalizeIndexPath path = path := by
  have segments : pathSegments path = pathSegments value := by
    rw [pathSegments, slashed_of_free (backslash_notMem normal named), trimmed,
      splitOn_normalizeIndexPath normal named,
      cleanSegments_of_clean (fun segment mem => (mem_pathSegments mem).1), List.append_nil,
      List.reverse_reverse]
  rw [normalizeIndexPath_eq, segments, ← normalizeIndexPath_eq, normal]

/-- The path is accepted as it is. -/
def FixedPath (path : String) : Prop := validateIndexSourcePath path = .ok path

theorem normalizeIndexPath_raw (value : String) :
    normalizeIndexPath (trimSpace (slashed value)) = normalizeIndexPath value := by
  have free : '\\' ∉ (trimSpace (slashed value)).toList := by
    intro back
    have inText := (infix_trimChars isSpace (slashed value).toList).subset (by
      simpa [trimSpace] using back)
    exact backslash_notMem_slashed value inText
  rw [normalizeIndexPath_eq, normalizeIndexPath_eq, pathSegments, pathSegments,
    slashed_of_free free, trimSpace_trimSpace]

/-- The path under which a text that a client sends is stored or looked up: what the validation
has made of it is normalized a second time. -/
def storedPath (value : String) : String := normalizeIndexPath (normalizeIndexPath value)

/-- What two normalizations make of the text has no white space around it and no drive letter,
and is not excluded. -/
structure SettledPath (value : String) : Prop where
  trimmed : trimSpace (storedPath value) = storedPath value
  noDrive : windowsDrive (storedPath value).toList = false
  allowed : isCloudIndexPathExcluded (storedPath value) = false

theorem storedPath_of_accepted {value path : String}
    (accepted : validateIndexSourcePath value = .ok path) :
    storedPath value = normalizeIndexPath path := by
  obtain ⟨-, -, -, normal, -, -⟩ := (validateIndexSourcePath_eq_ok rfl).mp accepted
  rw [storedPath, ← normal]
  exact congrArg normalizeIndexPath (normalizeIndexPath_raw value).symm

/-- A normalized path is accepted as it is, unless its edges, a drive letter or the policy
stand against it. -/
theorem fixedPath_of_normal {value path : String} (normal : normalizeIndexPath value = path)
    (short : path.utf8ByteSize ≤ maxIndexPathBytes) (named : path ≠ "")
    (trimmed : trimSpace path = path) (noDrive : windowsDrive path.toList = false)
    (allowed : isCloudIndexPathExcluded path = false) : FixedPath path := by
  have again := normalizeIndexPath_fixed normal named trimmed
  have whole : trimSpace (slashed path) = path := by
    rw [slashed_of_free (backslash_notMem normal named), trimmed]
  have segments := splitOn_normalizeIndexPath normal named
  refine (validateIndexSourcePath_eq_ok whole).mpr ⟨short, ?_, ?_, again, named, allowed⟩
  · rintro (blank | rooted | drive)
    · exact named blank
    · -- a leading slash would make the first segment empty
      obtain ⟨rest, text⟩ : ∃ rest, path.toList = '/' :: rest := by
        cases chars : path.toList with
        | nil => simp [chars] at rooted
        | cons c rest =>
          rw [chars, List.head?_cons, Option.some.injEq] at rooted
          exact ⟨rest, by rw [rooted]⟩
      rw [text, splitOn_cons_sep] at segments
      have first : [] ∈ pathSegments value := segments ▸ List.mem_cons_self
      exact (mem_pathSegments first).1.1 rfl
    · rw [noDrive] at drive
      cases drive
  · intro parent
    rw [segments] at parent
    exact (mem_pathSegments parent).1.2.2 rfl

/-- A text that a trim does not shorten is left alone by it. -/
theorem trimSpace_of_size {s : String} (size : s.utf8ByteSize ≤ (trimSpace s).utf8ByteSize) :
    trimSpace s = s := by
  obtain ⟨before, after, whole⟩ := infix_trimChars isSpace s.toList
  have empty (cs : List Char) (none : String.utf8Len cs = 0) : cs = [] := by
    cases cs with
    | nil => rfl
    | cons c cs =>
      have width := c.utf8Size_pos
      rw [String.utf8Len_cons] at none
      omega
  rw [trimSpace, String.utf8ByteSize_ofList, ← String.utf8Len_toList, ← whole,
    String.utf8Len_append, String.utf8Len_append, whole] at size
  rw [empty before (by omega), empty after (by omega), List.nil_append, List.append_nil] at whole
  rw [trimSpace, whole, String.ofList_toList]

theorem FixedPath.trimmed {path : String} (fixed : FixedPath path) : trimSpace path = path := by
  obtain ⟨-, -, -, normal, named, -⟩ := (validateIndexSourcePath_eq_ok rfl).mp fixed
  have slashes : slashed path = path := slashed_of_free (backslash_notMem normal named)
  -- normalizing does not lengthen, so the trim has taken nothing away
  have size := utf8ByteSize_normalizeIndexPath_le (trimSpace (slashed path))
  rw [show normalizeIndexPath (trimSpace (slashed path)) = path from normal, slashes] at size
  exact trimSpace_of_size size

/-- A fixed point is normalized to itself, is relative to the repository and is not excluded. -/
theorem FixedPath.stays {path : String} (fixed : FixedPath path) :
    normalizeIndexPath path = path ∧ path ≠ "" ∧ path.toList.head? ≠ some '/' ∧
      windowsDrive path.toList = false ∧ "..".toList ∉ splitOn '/' path.toList ∧
      isCloudIndexPathExcluded path = false := by
  obtain ⟨-, relative, inside, normal, named, allowed⟩ :=
    (validateIndexSourcePath_eq_ok rfl).mp fixed
  have slashes : slashed path = path := slashed_of_free (backslash_notMem normal named)
  have raw : trimSpace (slashed path) = path := by rw [slashes, fixed.trimmed]
  simp only [not_or] at relative
  rw [show trimSpace (String.ofList (path.toList.map fun c => if c = '\\' then '/' else c)) = path
    from raw] at relative inside normal
  exact ⟨normal, named, relative.2.1, by simpa using relative.2.2, inside, allowed⟩

/-- Of an accepted text, the stored path is a fixed point exactly if the text is settled. The
empty path is never stored: a manifest with it is refused, and no file is looked up under it. -/
theorem settledPath_iff {value path : String} (accepted : validateIndexSourcePath value = .ok path) :
    SettledPath value ↔ (normalizeIndexPath path ≠ "" → FixedPath (normalizeIndexPath path)) := by
  have stored := storedPath_of_accepted accepted
  obtain ⟨short, -, -, normal, -, -⟩ := (validateIndexSourcePath_eq_ok rfl).mp accepted
  constructor
  · rintro ⟨trimmed, noDrive, allowed⟩ named
    rw [stored] at trimmed noDrive allowed
    refine fixedPath_of_normal rfl ?_ named trimmed noDrive allowed
    have once := utf8ByteSize_normalizeIndexPath_le path
    have twice := normal ▸ utf8ByteSize_normalizeIndexPath_le (trimSpace (slashed value))
    exact once.trans (twice.trans short)
  · intro fixed
    by_cases blank : normalizeIndexPath path = ""
    · rw [← stored] at blank
      constructor <;> rw [blank] <;> decide
    · have known := fixed blank
      obtain ⟨-, -, -, noDrive, -, allowed⟩ := known.stays
      constructor <;> rw [stored]
      exacts [known.trimmed, noDrive, allowed]

/-! ## Stored paths -/

/-- Every path in the manifests and in the snapshots is a fixed point. -/
def Database.PathsFixed (db : Database) : Prop :=
  (∀ file ∈ db.indexJobFiles, FixedPath file.path) ∧ ∀ file ∈ db.indexedFiles, FixedPath file.path

/-- The paths a client sends with a start. -/
def MCPIndexStartArgs.Settled (args : MCPIndexStartArgs) : Prop :=
  (∀ file ∈ args.files, SettledPath file.path) ∧ ∀ path ∈ args.unreadableFiles, SettledPath path

/-- The paths of a start are settled exactly if what the request makes of them, where it is not
empty, is a fixed point. -/
theorem startRequest_settled {check : String → Except String Unit} {args : MCPIndexStartArgs}
    {req : StartRequest} (accepted : startRequest check args = .ok req) :
    ((∀ file ∈ args.files, SettledPath file.path) ↔ ∀ file ∈ req.files,
      normalizeIndexPath file.path ≠ "" → FixedPath (normalizeIndexPath file.path)) ∧
    ((∀ path ∈ args.unreadableFiles, SettledPath path) ↔ ∀ path ∈ req.unreadableFiles,
      normalizeIndexPath path ≠ "" → FixedPath (normalizeIndexPath path)) := by
  simp only [startRequest, bind_ok_iff, refuse_ok_iff, pure_ok_iff] at accepted
  obtain ⟨-, -, -, -, files, validFiles, unreadable, validPaths, -, -, rfl⟩ := accepted
  constructor
  · refine mapM_forall validFiles fun arg file valid => ?_
    exact settledPath_iff (validateMCPManifestFile_eq_ok valid).1
  · exact mapM_forall validPaths fun value path valid => settledPath_iff valid

theorem Created.path_of_mem {now : Nat} {db after : Database} {transaction : Transaction}
    {job : IndexJob} {files : List ManifestFile} (created : Created now db after transaction job files)
    {file : JobFile} (mem : file ∈ after.indexJobFiles) :
    file ∈ db.indexJobFiles ∨ ∃ source ∈ files, source.path = file.path := by
  obtain ⟨userID, req, wait, normalized, diff, -, -, -, -, -, inserted⟩ := created
  obtain ⟨jobs, rows, -, copied, rfl⟩ := Database.insertIndexJob_eq_ok inserted
  refine ((Table.mem_insert copied).mp mem).imp_right fun added => ?_
  obtain ⟨source, listed, rfl⟩ := List.mem_map.mp added
  exact ⟨source, listed, rfl⟩

theorem Created.exists_row {now : Nat} {db after : Database} {transaction : Transaction}
    {job : IndexJob} {files : List ManifestFile} (created : Created now db after transaction job files)
    {source : ManifestFile} (listed : source ∈ files) :
    ∃ file ∈ after.indexJobFiles, file.path = source.path := by
  obtain ⟨userID, req, wait, normalized, diff, -, -, -, -, -, inserted⟩ := created
  obtain ⟨jobs, rows, -, copied, rfl⟩ := Database.insertIndexJob_eq_ok inserted
  exact ⟨_, (Table.mem_insert copied).mpr (.inr (List.mem_map_of_mem listed)), rfl⟩

theorem Created.indexedFiles {now : Nat} {db after : Database} {transaction : Transaction}
    {job : IndexJob} {files : List ManifestFile}
    (created : Created now db after transaction job files) : after.indexedFiles = db.indexedFiles := by
  obtain ⟨userID, req, wait, normalized, diff, -, -, -, -, -, inserted⟩ := created
  obtain ⟨jobs, rows, -, -, rfl⟩ := Database.insertIndexJob_eq_ok inserted
  rfl

/-- A start request is what `handleCodebaseIndex` made of settled arguments. -/
def SettledStart : Transaction → Prop
  | .create _ req _ _ => ∃ check args, startRequest check args = .ok req ∧ args.Settled
  | _ => True

namespace Database.PathsFixed

variable {db : Database} {now clock : Nat}

theorem snapshot (fixed : db.PathsFixed) {userID workspaceID : String} {old : ManifestFile}
    (mem : old ∈ db.loadIndexedSnapshot userID workspaceID) : FixedPath old.path := by
  obtain ⟨file, stored, -, -, rfl⟩ := mem_loadIndexedSnapshot.mp mem
  exact fixed.2 file stored

/-- A start stores the paths of its manifest, and those it carries over from the snapshot: they
are fixed points exactly if the paths that the client sent are settled. -/
theorem created_iff (fixed : db.PathsFixed) {after : Database} {job : IndexJob}
    {files : List ManifestFile} {userID : String} {req : StartRequest} {wait : Nat}
    (made : Created now db after (.create userID req wait job.id) job files)
    {check : String → Except String Unit} {args : MCPIndexStartArgs}
    (request : startRequest check args = .ok req) :
    after.PathsFixed ↔ ∀ file ∈ args.files, SettledPath file.path := by
  rw [(startRequest_settled request).1]
  obtain ⟨owner, sent, waited, normalized, diff, same, accepted, grafted, -, -, -⟩ := id made
  cases same
  have manifest := (normalizeStartRequest_eq_ok accepted).1
  have distinct := normalizeManifest_nodup manifest
  constructor
  · intro stored file mem _
    have kept : storedFile file ∈ normalized.files := by
      obtain ⟨-, -, -, sorted⟩ := normalizeManifest_eq_ok.mp manifest
      rw [← sorted, List.mem_insertionSort byPath]
      exact List.mem_map_of_mem mem
    obtain ⟨row, listed, path⟩ := made.exists_row (mem_graft_of_mem grafted distinct kept)
    have known := stored.1 row listed
    rwa [path] at known
  · intro settled
    refine ⟨fun file mem => ?_, fun file mem => fixed.2 file (made.indexedFiles ▸ mem)⟩
    rcases made.path_of_mem mem with old | ⟨source, listed, path⟩
    · exact fixed.1 file old
    · rw [← path]
      rcases mem_of_mem_graft grafted distinct listed with new | old
      · obtain ⟨named, origin, sender, rfl⟩ := mem_normalizeManifest manifest new
        exact settled origin sender named
      · exact fixed.snapshot old

theorem created (fixed : db.PathsFixed) {after : Database} {transaction : Transaction}
    {job : IndexJob} {files : List ManifestFile} (made : Created now db after transaction job files)
    (settled : SettledStart transaction) : ∀ file ∈ after.indexJobFiles, FixedPath file.path := by
  obtain ⟨userID, req, wait, normalized, diff, rfl, -⟩ := id made
  obtain ⟨check, args, request, plain, -⟩ := settled
  exact ((fixed.created_iff made request).mpr plain).1

theorem manifests (fixed : db.PathsFixed) {transaction : Transaction}
    (settled : SettledStart transaction) :
    ∀ file ∈ (db.exec now clock transaction).indexJobFiles, FixedPath file.path := by
  rcases db.exec_manifests now clock transaction with traces | ⟨job, files, made⟩
  · intro file mem
    obtain ⟨old, stored, change⟩ := traces file mem
    cases change with
    | same => exact fixed.1 file stored
    | marked => exact fixed.1 old stored
  · exact fixed.created made settled

theorem snapshots (fixed : db.PathsFixed) (transaction : Transaction) :
    ∀ file ∈ (db.exec now clock transaction).indexedFiles, FixedPath file.path := by
  intro file mem
  have kept {p : IndexedFile → Bool} (listed : file ∈ db.indexedFiles.delete p) :
      FixedPath file.path := fixed.2 file (Table.mem_delete.mp listed).1
  cases db.exec_snapshots now clock transaction with
  | same _ files | described _ _ _ _ _ _ files | dismissed _ _ files =>
    rw [files] at mem
    exact fixed.2 file mem
  | published userID jobID rootID revision job found ready files =>
    rcases (Table.mem_insert files).mp mem with old | added
    · exact kept old
    · obtain ⟨row, stored, rfl⟩ := List.mem_map.mp added
      exact fixed.1 row (Table.mem_select.mp stored).1
  | clearedUser _ files | clearedRoot _ _ _ _ files | clearedAll _ _ files =>
    rw [files] at mem
    exact kept mem

theorem exec (fixed : db.PathsFixed) {transaction : Transaction}
    (settled : SettledStart transaction) : (db.exec now clock transaction).PathsFixed :=
  ⟨fixed.manifests settled, fixed.snapshots transaction⟩

end Database.PathsFixed

/-- A batch file that is staged has a manifest row. -/
theorem stageFiles_row {sha256 : String → String} {records : String → Option JobFile}
    {inputs staged : List ManifestFile} (accepted : stageFiles sha256 records inputs = .ok staged)
    {file : ManifestFile} (mem : file ∈ staged) : ∃ row, records file.path = some row := by
  induction inputs generalizing staged with
  | nil =>
    simp only [stageFiles, Except.ok.injEq] at accepted
    subst accepted
    cases mem
  | cons input rest ih =>
    simp only [stageFiles] at accepted
    split at accepted
    · cases accepted
    next first here =>
      split at accepted
      · cases accepted
      next others later =>
        cases accepted
        rcases List.mem_cons.mp mem with rfl | mem
        · unfold stageFile at here
          split at here
          · cases here
          next row found =>
            have same : file.path = input.path := by
              repeat' split at here
              all_goals cases here
              rfl
            exact ⟨row, same ▸ found⟩
        · exact ih later mem

/-- What an upload sends to the cloud: the staged files and the paths that are gone. -/
theorem Database.PathsFixed.batch {db : Database} (fixed : db.PathsFixed)
    {sha256 : String → String} {userID : String} {req : UploadRequest} {batch : PreparedBatch}
    (prepared : db.prepareIndexBatch sha256 userID req = .ok batch) :
    (∀ file ∈ batch.staged, FixedPath file.path) ∧ ∀ path ∈ batch.deleted, FixedPath path := by
  unfold Database.prepareIndexBatch at prepared
  split at prepared
  · cases prepared
  iterate 3
    split at prepared
    · cases prepared
  split at prepared
  · cases prepared
  split at prepared
  · cases prepared
  next staged accepted =>
    cases prepared
    constructor
    · intro file mem
      obtain ⟨row, found⟩ := stageFiles_row accepted mem
      obtain ⟨stored, key⟩ := Table.lookup_eq_some.mp found
      have same : row.path = file.path := congrArg Prod.snd key
      exact same ▸ fixed.1 row stored
    · intro path mem
      dsimp only at mem
      split at mem
      · obtain ⟨old, listed, rfl⟩ := List.mem_map.mp mem
        have kept := (List.mem_insertionSort byPath).mp listed
        exact fixed.snapshot (List.mem_filter.mp kept).1
      · cases mem

/-- The condition on an event of a run. -/
def SettledEvent (_ : World) : Event → Prop
  | .tick _ => True
  | .commit _ transaction => SettledStart transaction

/-- In every run whose starts have settled paths, every path in the manifests and snapshots and
every path an upload sends to the cloud is a fixed point of `validateIndexSourcePath`. The
condition is exact at every start: the tables keep nothing but fixed points exactly if the paths
of the manifest are settled, and the unreadable paths are looked up under fixed points exactly
if they are. A fixed point is normalized to itself, so that it can be sent back as it is, is
relative to the repository and is not excluded. -/
theorem paths_survive_normalization (events : List Event)
    (settled : Along World.step SettledEvent World.initial events) :
    (runFrom World.step World.initial events).db.PathsFixed ∧
    (∀ sha256 userID req batch,
      (runFrom World.step World.initial events).db.prepareIndexBatch sha256 userID req = .ok batch →
      (∀ file ∈ batch.staged, FixedPath file.path) ∧ ∀ path ∈ batch.deleted, FixedPath path) ∧
    (∀ now db after job files userID req wait check args, Database.PathsFixed db →
      startRequest check args = .ok req →
      Created now db after (.create userID req wait job.id) job files →
      (after.PathsFixed ↔ ∀ file ∈ args.files, SettledPath file.path)) ∧
    (∀ check args req, startRequest check args = .ok req →
      ((∀ path ∈ unreadablePaths req.unreadableFiles, FixedPath path) ↔
        ∀ path ∈ args.unreadableFiles, SettledPath path)) ∧
    ∀ path, FixedPath path → normalizeIndexPath path = path ∧ path ≠ "" ∧
      path.toList.head? ≠ some '/' ∧ windowsDrive path.toList = false ∧
      "..".toList ∉ splitOn '/' path.toList ∧ isCloudIndexPathExcluded path = false := by
  have fixed : (runFrom World.step World.initial events).db.PathsFixed := by
    refine invariant_along (P := fun world => world.db.PathsFixed) ?_ ?_ events settled
    · intro world event fixed ok
      cases event with
      | tick elapsed => exact fixed
      | commit waited transaction =>
        simp only [World.step]
        split
        · exact fixed.exec ok
        · exact fixed
    · exact ⟨fun file mem => absurd mem (Table.not_mem_empty _),
        fun file mem => absurd mem (Table.not_mem_empty _)⟩
  refine ⟨fixed, fun _ _ _ _ prepared => fixed.batch prepared, ?_, ?_, fun _ known => known.stays⟩
  · intro now db after job files userID req wait check args known request made
    exact known.created_iff made request
  · intro check args req request
    rw [(startRequest_settled request).2]
    constructor
    · intro known path mem named
      exact known _ (mem_unreadablePaths.mpr ⟨named, path, mem, rfl⟩)
    · intro known path mem
      obtain ⟨named, rawPath, listed, rfl⟩ := mem_unreadablePaths.mp mem
      exact known rawPath listed named

/-- A start with the given paths, by a client of any version. -/
def startOf (paths unreadable : List String) : Except String StartRequest :=
  startRequest (fun _ => .ok ())
    { rootID := "r", unreadableFiles := unreadable
      files := paths.map fun path =>
        { path, hash := String.ofList (List.replicate 64 'a'), size := 1, estimatedChunks := 1 } }

/-- The run that consists of such a start. -/
def startRun (paths unreadable : List String) : List Event :=
  match startOf paths unreadable with
  | .error _ => []
  | .ok req => [.commit 0 (.create "u" req 0 "j")]

theorem along_startRun {paths unreadable : List String} (files : ∀ path ∈ paths, SettledPath path)
    (others : ∀ path ∈ unreadable, SettledPath path) :
    Along World.step SettledEvent World.initial (startRun paths unreadable) := by
  unfold startRun
  split
  · trivial
  next req accepted =>
    refine ⟨⟨_, _, accepted, ?_, others⟩, trivial⟩
    intro file mem
    obtain ⟨path, listed, rfl⟩ := List.mem_map.mp mem
    exact files path listed

/-- A start with a path that the first validation cleans, one with a blank that the second
normalization takes away, and an unreadable path. -/
theorem paths_survive_normalization_cleaned :
    let events := startRun ["./src//main.go", "./ a.go"] ["docs\\a.md"]
    Along World.step SettledEvent World.initial events ∧
      ((runFrom World.step World.initial events).db.indexJobFiles.rows.map (·.path)) =
        ["a.go", "src/main.go"] ∧
      (runFrom World.step World.initial events).db.PathsFixed := by
  intro events
  have settled : Along World.step SettledEvent World.initial events := by
    have cleaned : SettledPath "./src//main.go" :=
      ⟨by decide +kernel, by decide +kernel, by decide +kernel⟩
    have blank : SettledPath "./ a.go" :=
      ⟨by decide +kernel, by decide +kernel, by decide +kernel⟩
    have other : SettledPath "docs\\a.md" :=
      ⟨by decide +kernel, by decide +kernel, by decide +kernel⟩
    exact along_startRun (by simp [cleaned, blank]) (by simp [other])
  exact ⟨settled, by decide +kernel, (paths_survive_normalization events settled).1⟩

/-- Blanks and a drive letter that come to the front only when the path is cleaned: the start is
accepted, and `.env` and `C:/x` are stored, which `validateIndexSourcePath` refuses. -/
theorem excluded_paths_stored :
    (startOf ["./ .env", "./C:/x"] []).toOption.isSome = true ∧
    ((runFrom World.step World.initial (startRun ["./ .env", "./C:/x"] [])
      ).db.indexJobFiles.rows.map (·.path)) = [".env", "C:/x"] ∧
    validateIndexSourcePath ".env" = .error "index path is excluded: .env" ∧
    validateIndexSourcePath "C:/x" = .error "index path must be repository-relative: C:/x" := by
  decide +kernel

end AcemcpRelay
