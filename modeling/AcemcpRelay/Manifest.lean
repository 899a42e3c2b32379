import AcemcpRelay.Text
import Mathlib.Data.List.Sort
import Mathlib.Data.List.Nodup
import Mathlib.Data.List.Perm.Basic

/-!
# Manifests

The pure part of `createIndexJob`: normalizing the manifest a client sends,
carrying over unreadable files from the last snapshot, and the difference
between that snapshot and the manifest.

A snapshot is the list of its files, no two with one path.
-/
namespace AcemcpRelay

def maxIndexManifestFiles : Nat := 100000

/-- `indexManifestFile`. -/
structure ManifestFile where
  path : String
  hash : String
  size : Int
  estimatedChunks : Int
  content : String := ""
  deriving DecidableEq, Repr

/-! ### Paths -/

/-- The segments of a rooted path after `path.Clean`, last segment first. -/
def cleanSegments : List (List Char) → List (List Char) → List (List Char)
  | [], kept => kept
  | segment :: rest, kept =>
    if segment = [] ∨ segment = ['.'] then cleanSegments rest kept
    else if segment = ['.', '.'] then cleanSegments rest kept.tail
    else cleanSegments rest (segment :: kept)

/-- `normalizeIndexPath`. -/
def normalizeIndexPath (value : String) : String :=
  let slashed := String.ofList (value.toList.map fun c => if c = '\\' then '/' else c)
  let segments := (cleanSegments (splitOn '/' (trimSpace slashed).toList) []).reverse
  String.ofList (List.intercalate ['/'] segments)

theorem utf8Len_cleanSegments (segments kept : List (List Char)) :
    ((cleanSegments segments kept).map fun s => String.utf8Len s + 1).sum ≤
      (segments.map fun s => String.utf8Len s + 1).sum +
        (kept.map fun s => String.utf8Len s + 1).sum := by
  induction segments generalizing kept with
  | nil => simp [cleanSegments]
  | cons segment rest ih =>
    simp only [cleanSegments, List.map_cons, List.sum_cons]
    split
    · have := ih kept
      omega
    · split
      · have popped : (kept.tail.map fun s => String.utf8Len s + 1).sum ≤
            (kept.map fun s => String.utf8Len s + 1).sum := by
          cases kept with
          | nil => simp
          | cons _ _ => simp
        have := ih kept.tail
        omega
      · have := ih (segment :: kept)
        simp only [List.map_cons, List.sum_cons] at this
        omega

theorem utf8Len_intercalate (segments : List (List Char)) :
    String.utf8Len (List.intercalate ['/'] segments) ≤
      (segments.map fun s => String.utf8Len s + 1).sum - 1 := by
  have slash : '/'.utf8Size = 1 := rfl
  induction segments with
  | nil => simp
  | cons segment rest ih =>
    cases rest with
    | nil => simp
    | cons next more =>
      rw [List.intercalate_cons_cons]
      simp only [String.utf8Len_append, String.utf8Len_cons, String.utf8Len_nil, slash,
        List.map_cons, List.sum_cons] at ih ⊢
      omega

/-- Normalizing does not lengthen a path. -/
theorem utf8ByteSize_normalizeIndexPath_le (value : String) :
    (normalizeIndexPath value).utf8ByteSize ≤ value.utf8ByteSize := by
  have slashed : (String.ofList (value.toList.map fun c => if c = '\\' then '/' else c)
      ).utf8ByteSize = value.utf8ByteSize := by
    rw [String.utf8ByteSize_ofList, ← String.utf8Len_toList]
    induction value.toList with
    | nil => rfl
    | cons c cs ih =>
      rw [List.map_cons, String.utf8Len_cons, String.utf8Len_cons, ih]
      split
      next same => rw [same]; rfl
      · rfl
  let text := trimSpace (String.ofList (value.toList.map fun c => if c = '\\' then '/' else c))
  have trimmed : text.utf8ByteSize ≤ value.utf8ByteSize :=
    (utf8ByteSize_trimSpace_le _).trans_eq slashed
  have parts := utf8Len_splitOn (show '/'.utf8Size = 1 from rfl) text.toList
  have cleaned := utf8Len_cleanSegments (splitOn '/' text.toList) []
  have joined := utf8Len_intercalate (cleanSegments (splitOn '/' text.toList) []).reverse
  rw [List.map_reverse, List.sum_reverse] at joined
  rw [parts, String.utf8Len_toList, List.map_nil, List.sum_nil] at cleaned
  change (String.ofList (List.intercalate ['/']
    (cleanSegments (splitOn '/' text.toList) []).reverse)).utf8ByteSize ≤ _
  rw [String.utf8ByteSize_ofList]
  omega

/-- Go's order on strings, for valid UTF-8 the order of the code points. -/
def byPath (a b : ManifestFile) : Prop := a.path.toList ≤ b.path.toList

instance : DecidableRel byPath := fun a b =>
  inferInstanceAs (Decidable (a.path.toList ≤ b.path.toList))

/-! ### Normalizing -/

/-- The loop of `normalizeManifest`, in the order of the request. -/
def normalizeFiles : List String → List ManifestFile → Except String (List ManifestFile)
  | _, [] => .ok []
  | seen, file :: rest =>
    let path := normalizeIndexPath file.path
    let hash := trimSpace file.hash
    if path = "" ∨ hash = "" then .error "manifest file path and hash are required"
    -- two spellings of one path are a duplicate too
    else if path ∈ seen then .error ("duplicate manifest path: " ++ path)
    else
      match normalizeFiles (path :: seen) rest with
      | .error message => .error message
      | .ok files => .ok ({ path, hash, size := max file.size 0,
                            estimatedChunks := max file.estimatedChunks 1 } :: files)

def manifestTooLong : String := "manifest exceeds 100000 files"

/-- `normalizeManifest`. -/
def normalizeManifest (files : List ManifestFile) : Except String (List ManifestFile) :=
  if maxIndexManifestFiles < files.length then .error manifestTooLong
  else (normalizeFiles [] files).map (List.insertionSort byPath)

/-- The manifest entry as it is stored. -/
def storedFile (file : ManifestFile) : ManifestFile :=
  { path := normalizeIndexPath file.path, hash := trimSpace file.hash, size := max file.size 0
    estimatedChunks := max file.estimatedChunks 1 }

/-- The loop accepts entries that are complete and whose paths are new and pairwise
different, in any order. -/
theorem normalizeFiles_eq_ok {seen : List String} {files out : List ManifestFile} :
    normalizeFiles seen files = .ok out ↔
      (∀ file ∈ files, (storedFile file).path ≠ "" ∧ (storedFile file).hash ≠ "" ∧
        (storedFile file).path ∉ seen) ∧
      (files.map fun file => (storedFile file).path).Nodup ∧ files.map storedFile = out := by
  induction files generalizing seen out with
  | nil => simp [normalizeFiles]
  | cons file rest ih =>
    simp only [normalizeFiles, List.forall_mem_cons, List.map_cons, List.nodup_cons]
    by_cases blank : normalizeIndexPath file.path = "" ∨ trimSpace file.hash = ""
    · rw [if_pos blank]
      refine ⟨nofun, fun accepted => ?_⟩
      obtain ⟨named, hashed, -⟩ := accepted.1.1
      exact absurd blank (not_or.mpr ⟨named, hashed⟩)
    rw [if_neg blank]
    by_cases repeated : normalizeIndexPath file.path ∈ seen
    · rw [if_pos repeated]
      exact ⟨nofun, fun accepted => absurd repeated accepted.1.1.2.2⟩
    rw [if_neg repeated]
    -- the rest is accepted after this path iff it is accepted before it and avoids it
    have later (kept : List ManifestFile) :
        normalizeFiles (normalizeIndexPath file.path :: seen) rest = .ok kept ↔
          (∀ other ∈ rest, (storedFile other).path ≠ "" ∧ (storedFile other).hash ≠ "" ∧
            (storedFile other).path ∉ seen) ∧
          (storedFile file).path ∉ rest.map (fun file => (storedFile file).path) ∧
          (rest.map fun file => (storedFile file).path).Nodup ∧ rest.map storedFile = kept := by
      rw [ih]
      simp only [List.mem_cons, not_or, List.mem_map, not_exists, not_and]
      constructor
      · rintro ⟨complete, distinct, same⟩
        refine ⟨fun other member => ?_, fun other member => ?_, distinct, same⟩
        · obtain ⟨named, hashed, -, fresh⟩ := complete other member
          exact ⟨named, hashed, fresh⟩
        · exact (complete other member).2.2.1
      · rintro ⟨complete, apart, distinct, same⟩
        refine ⟨fun other member => ?_, distinct, same⟩
        obtain ⟨named, hashed, fresh⟩ := complete other member
        exact ⟨named, hashed, apart other member, fresh⟩
    have here : (storedFile file).path ≠ "" ∧ (storedFile file).hash ≠ "" ∧
        (storedFile file).path ∉ seen :=
      ⟨(not_or.mp blank).1, (not_or.mp blank).2, repeated⟩
    cases normalized : normalizeFiles (normalizeIndexPath file.path :: seen) rest with
    | error message =>
      refine ⟨nofun, fun ⟨⟨_, complete⟩, ⟨apart, distinct⟩, _⟩ => ?_⟩
      rw [(later (rest.map storedFile)).mpr ⟨complete, apart, distinct, rfl⟩] at normalized
      cases normalized
    | ok kept =>
      obtain ⟨complete, apart, distinct, rfl⟩ := (later kept).mp normalized
      simp only [Except.ok.injEq]
      exact ⟨fun same => ⟨⟨here, complete⟩, ⟨apart, distinct⟩, same⟩, fun accepted => accepted.2.2⟩

theorem normalizeManifest_eq_ok {files out : List ManifestFile} :
    normalizeManifest files = .ok out ↔
      files.length ≤ maxIndexManifestFiles ∧
      (∀ file ∈ files, (storedFile file).path ≠ "" ∧ (storedFile file).hash ≠ "") ∧
      (files.map fun file => (storedFile file).path).Nodup ∧
      (files.map storedFile).insertionSort byPath = out := by
  unfold normalizeManifest
  by_cases long : maxIndexManifestFiles < files.length
  · rw [if_pos long]
    exact ⟨nofun, fun accepted => absurd accepted.1 (Nat.not_le_of_lt long)⟩
  rw [if_neg long]
  have loop (kept : List ManifestFile) : normalizeFiles [] files = .ok kept ↔
      (∀ file ∈ files, (storedFile file).path ≠ "" ∧ (storedFile file).hash ≠ "" ∧
        (storedFile file).path ∉ []) ∧
      (files.map fun file => (storedFile file).path).Nodup ∧ files.map storedFile = kept :=
    normalizeFiles_eq_ok
  cases normalized : normalizeFiles [] files with
  | error message =>
    refine ⟨nofun, fun ⟨_, complete, distinct, _⟩ => ?_⟩
    rw [(loop _).mpr ⟨fun file member => ⟨(complete file member).1, (complete file member).2, by simp⟩,
      distinct, rfl⟩] at normalized
    cases normalized
  | ok kept =>
    obtain ⟨complete, distinct, rfl⟩ := (loop kept).mp normalized
    simp only [Except.map, Except.ok.injEq]
    refine ⟨fun same => ⟨Nat.le_of_not_lt long, fun file member => ?_, distinct, same⟩,
      fun accepted => accepted.2.2.2⟩
    exact ⟨(complete file member).1, (complete file member).2.1⟩

/-- Where an accepted entry comes from. -/
theorem mem_normalizeManifest {files out : List ManifestFile}
    (accepted : normalizeManifest files = .ok out) {file : ManifestFile} (member : file ∈ out) :
    file.path ≠ "" ∧ ∃ source ∈ files, file = { path := normalizeIndexPath source.path
                                                hash := trimSpace source.hash
                                                size := max source.size 0
                                                estimatedChunks := max source.estimatedChunks 1 } := by
  obtain ⟨-, complete, -, rfl⟩ := normalizeManifest_eq_ok.mp accepted
  obtain ⟨source, listed, rfl⟩ := List.mem_map.mp ((List.mem_insertionSort byPath).mp member)
  exact ⟨(complete source listed).1, source, listed, rfl⟩

theorem normalizeManifest_nodup {files out : List ManifestFile}
    (accepted : normalizeManifest files = .ok out) : (out.map (·.path)).Nodup := by
  obtain ⟨-, -, distinct, rfl⟩ := normalizeManifest_eq_ok.mp accepted
  have sorted := (List.perm_insertionSort byPath (files.map storedFile)).map (·.path)
  rw [sorted.nodup_iff, List.map_map]
  exact distinct

/-- The order of the entries does not matter. -/
theorem normalizeManifest_perm {files again out : List ManifestFile} (same : again.Perm files)
    (accepted : normalizeManifest files = .ok out) :
    ∃ kept, normalizeManifest again = .ok kept ∧ kept.Perm out := by
  obtain ⟨short, complete, distinct, rfl⟩ := normalizeManifest_eq_ok.mp accepted
  refine ⟨_, normalizeManifest_eq_ok.mpr ⟨same.length_eq.trans_le short, fun file member =>
    complete file (same.mem_iff.mp member), (same.map _).nodup_iff.mpr distinct, rfl⟩, ?_⟩
  have sorted := List.perm_insertionSort byPath (again.map storedFile)
  exact (sorted.trans (same.map storedFile)).trans (List.perm_insertionSort byPath _).symm

/-! ### Unreadable files -/

/-- The loop of `graftUnreadablePaths`; `current` holds the paths already present. -/
def graftLoop (previous : List ManifestFile) :
    List String → List ManifestFile → List String → List ManifestFile
  | [], files, _ => files
  | rawPath :: rest, files, current =>
    let filePath := normalizeIndexPath rawPath
    if filePath = "" ∨ filePath ∈ current then graftLoop previous rest files current
    else match previous.find? (·.path == filePath) with
      -- a path the snapshot does not have is nothing that could be kept
      | none => graftLoop previous rest files (filePath :: current)
      | some old => graftLoop previous rest (files ++ [old]) (filePath :: current)

/-- `graftUnreadablePaths`: a file that cannot be read now but is in the last
snapshot is carried over unchanged. -/
def graftUnreadablePaths (previous files : List ManifestFile) (unreadable : List String) :
    Except String (List ManifestFile) :=
  if unreadable = [] then .ok files
  else if maxIndexManifestFiles < unreadable.length then
    .error "unreadable file list exceeds 100000 files"
  else
    let grafted := graftLoop previous unreadable files (files.map (·.path))
    if maxIndexManifestFiles < grafted.length then .error manifestTooLong
    -- nothing was grafted, and the manifest is sorted already
    else if grafted.length = files.length then .ok grafted
    else .ok (grafted.insertionSort byPath)

/-- What the loop adds comes from the snapshot, and repeats no path. -/
theorem graftLoop_spec (previous : List ManifestFile) (unreadable : List String)
    (files : List ManifestFile) (current : List String)
    (distinct : (files.map (·.path)).Nodup) (covered : ∀ file ∈ files, file.path ∈ current) :
    ((graftLoop previous unreadable files current).map (·.path)).Nodup ∧
      (∀ file ∈ files, file ∈ graftLoop previous unreadable files current) ∧
      ∀ file ∈ graftLoop previous unreadable files current, file ∈ files ∨ file ∈ previous := by
  -- on the unreadable paths; `current` covers what the result has so far
  induction unreadable generalizing files current with
  | nil => exact ⟨distinct, fun _ member => member, fun _ member => .inl member⟩
  | cons rawPath rest ih =>
    simp only [graftLoop]
    split
    · exact ih files current distinct covered
    next absent =>
      rw [not_or] at absent
      split
      · exact ih files _ distinct fun file member => List.mem_cons_of_mem _ (covered file member)
      next old found =>
        have same : old.path = normalizeIndexPath rawPath := by
          simpa using List.find?_some found
        have stored : old ∈ previous := List.mem_of_find?_eq_some found
        have distinct' : ((files ++ [old]).map (·.path)).Nodup := by
          rw [List.map_append, List.nodup_append]
          refine ⟨distinct, by simp, ?_⟩
          intro a member b single
          obtain ⟨file, inFiles, rfl⟩ := List.mem_map.mp member
          rw [List.map_singleton, List.mem_singleton] at single
          rw [single, same]
          exact fun clash => absent.2 (clash ▸ covered file inFiles)
        have covered' : ∀ file ∈ files ++ [old],
            file.path ∈ normalizeIndexPath rawPath :: current := by
          intro file member
          rcases List.mem_append.mp member with inFiles | single
          · exact List.mem_cons_of_mem _ (covered file inFiles)
          · rw [List.mem_singleton.mp single, same]
            exact List.mem_cons_self
        obtain ⟨nodup, kept, origin⟩ := ih (files ++ [old]) _ distinct' covered'
        refine ⟨nodup, fun file member => kept file (List.mem_append_left _ member), ?_⟩
        intro file member
        rcases origin file member with inFiles | inPrevious
        · rcases List.mem_append.mp inFiles with inFiles | single
          · exact .inl inFiles
          · exact .inr (List.mem_singleton.mp single ▸ stored)
        · exact .inr inPrevious

/-- The loop adds the snapshot's files that are named as unreadable and not present. -/
theorem mem_graftLoop {previous : List ManifestFile} (single : (previous.map (·.path)).Nodup)
    {unreadable : List String} {files : List ManifestFile} {current : List String}
    {file : ManifestFile} :
    file ∈ graftLoop previous unreadable files current ↔
      file ∈ files ∨ (file ∈ previous ∧ file.path ≠ "" ∧ file.path ∉ current ∧
        ∃ rawPath ∈ unreadable, normalizeIndexPath rawPath = file.path) := by
  induction unreadable generalizing files current with
  | nil => simp [graftLoop]
  | cons rawPath rest ih =>
    have either : (∃ path ∈ rawPath :: rest, normalizeIndexPath path = file.path) ↔
        normalizeIndexPath rawPath = file.path ∨
          ∃ path ∈ rest, normalizeIndexPath path = file.path := by
      simp only [List.mem_cons, or_and_right, exists_or, exists_eq_left]
    rw [either]
    simp only [graftLoop]
    split
    next skipped =>
      -- a blank path, or one that is there already, names nothing to add
      rw [ih]
      refine or_congr_right (and_congr_right fun _ => and_congr_right fun named =>
        and_congr_right fun absent => ⟨.inr, ?_⟩)
      rintro (same | later)
      · rw [same] at skipped
        exact absurd skipped (not_or.mpr ⟨named, absent⟩)
      · exact later
    next kept =>
      obtain ⟨named, absent⟩ := not_or.mp kept
      split
      next missing =>
        rw [ih]
        refine or_congr_right (and_congr_right fun stored => and_congr_right fun _ => ?_)
        have different : file.path ≠ normalizeIndexPath rawPath := by
          intro same
          have missed := List.find?_eq_none.mp missing file stored
          simp [same] at missed
        simp only [List.mem_cons, different, false_or, different.symm]
      next old found =>
        have same : old.path = normalizeIndexPath rawPath := by
          simpa using List.find?_some found
        have stored : old ∈ previous := List.mem_of_find?_eq_some found
        rw [ih, List.mem_append, List.mem_singleton, or_assoc]
        refine or_congr_right ⟨?_, ?_⟩
        · rintro (rfl | ⟨inPrevious, nonempty, unseen, later⟩)
          · exact ⟨stored, by rw [same]; exact named, by rw [same]; exact absent, .inl same.symm⟩
          · exact ⟨inPrevious, nonempty, fun seen => unseen (List.mem_cons_of_mem _ seen), .inr later⟩
        · rintro ⟨inPrevious, nonempty, unseen, first | later⟩
          · exact .inl (List.inj_on_of_nodup_map single inPrevious stored
              (first.symm.trans same.symm))
          · by_cases again : file.path = normalizeIndexPath rawPath
            · exact .inl (List.inj_on_of_nodup_map single inPrevious stored
                (again.trans same.symm))
            · refine .inr ⟨inPrevious, nonempty, ?_, later⟩
              exact fun seen => (List.mem_cons.mp seen).elim again unseen

/-- Sorted or not, the result has the files of the loop. -/
theorem graftUnreadablePaths_perm {previous files out : List ManifestFile}
    {unreadable : List String} (accepted : graftUnreadablePaths previous files unreadable = .ok out) :
    out.Perm (graftLoop previous unreadable files (files.map (·.path))) := by
  unfold graftUnreadablePaths at accepted
  split at accepted
  next empty =>
    simp only [Except.ok.injEq] at accepted
    simp [empty, graftLoop, accepted]
  · split at accepted
    · simp at accepted
    · simp only at accepted
      split at accepted
      · simp at accepted
      · split at accepted
        · simp only [Except.ok.injEq] at accepted
          simp [accepted]
        · simp only [Except.ok.injEq] at accepted
          rw [← accepted]
          exact List.perm_insertionSort byPath _

theorem graftUnreadablePaths_ok_iff {previous files : List ManifestFile} {unreadable : List String} :
    (∃ out, graftUnreadablePaths previous files unreadable = .ok out) ↔
      unreadable = [] ∨ (unreadable.length ≤ maxIndexManifestFiles ∧
        (graftLoop previous unreadable files (files.map (·.path))).length ≤ maxIndexManifestFiles) := by
  unfold graftUnreadablePaths
  by_cases none : unreadable = []
  · simp [none]
  rw [if_neg none]
  by_cases many : maxIndexManifestFiles < unreadable.length
  · simp [none, many, Nat.not_le_of_lt many]
  rw [if_neg many]
  by_cases long :
      maxIndexManifestFiles < (graftLoop previous unreadable files (files.map (·.path))).length
  · simp [none, long, Nat.not_le_of_lt long]
  · refine ⟨fun _ => .inr ⟨Nat.le_of_not_lt many, Nat.le_of_not_lt long⟩, fun _ => ?_⟩
    simp only [if_neg long]
    split
    · exact ⟨_, rfl⟩
    · exact ⟨_, rfl⟩

theorem graftUnreadablePaths_nodup {previous files out : List ManifestFile}
    {unreadable : List String} (accepted : graftUnreadablePaths previous files unreadable = .ok out)
    (distinct : (files.map (·.path)).Nodup) : (out.map (·.path)).Nodup := by
  have spec := graftLoop_spec previous unreadable files (files.map (·.path)) distinct
    fun file member => List.mem_map_of_mem member
  exact ((graftUnreadablePaths_perm accepted).map (·.path)).nodup_iff.mpr spec.1

theorem mem_of_mem_graft {previous files out : List ManifestFile}
    {unreadable : List String} (accepted : graftUnreadablePaths previous files unreadable = .ok out)
    (distinct : (files.map (·.path)).Nodup) {file : ManifestFile} (member : file ∈ out) :
    file ∈ files ∨ file ∈ previous := by
  have spec := graftLoop_spec previous unreadable files (files.map (·.path)) distinct
    fun file member => List.mem_map_of_mem member
  exact spec.2.2 file ((graftUnreadablePaths_perm accepted).mem_iff.mp member)

theorem mem_graft_of_mem {previous files out : List ManifestFile} {unreadable : List String}
    (accepted : graftUnreadablePaths previous files unreadable = .ok out)
    (distinct : (files.map (·.path)).Nodup) {file : ManifestFile} (member : file ∈ files) :
    file ∈ out := by
  have spec := graftLoop_spec previous unreadable files (files.map (·.path)) distinct
    fun file member => List.mem_map_of_mem member
  exact (graftUnreadablePaths_perm accepted).mem_iff.mpr (spec.2.1 file member)

/-- The files that are named as unreadable. A path that normalizes to nothing names none. -/
def unreadablePaths (unreadable : List String) : List String :=
  (unreadable.map normalizeIndexPath).filter (· ≠ "")

theorem mem_unreadablePaths {unreadable : List String} {path : String} :
    path ∈ unreadablePaths unreadable ↔
      path ≠ "" ∧ ∃ rawPath ∈ unreadable, normalizeIndexPath rawPath = path := by
  simp [unreadablePaths, and_comm]

/-! ### The difference -/

/-- The manifest entry has to be uploaded: it is new, or its hash or size differs. -/
def changed (previous : List ManifestFile) (file : ManifestFile) : Bool :=
  match previous.find? (·.path == file.path) with
  | none => true
  | some old => old.hash != file.hash || old.size != file.size

/-- The result of `diffManifest`. -/
structure ManifestDiff where
  pending : List String
  deleted : List String
  estimatedChunks : Int
  deriving DecidableEq, Repr

/-- What a Go `int64` holds after a sum. -/
def int64 (n : Int) : Int := n.bmod (2 ^ 64)

/-- `diffManifest`. -/
def diffManifest (previous current : List ManifestFile) : ManifestDiff :=
  let pending := current.filter (changed previous)
  { pending := pending.map (·.path)
    deleted := ((previous.filter fun old => current.all fun file => file.path != old.path
      ).insertionSort byPath).map (·.path)
    estimatedChunks := int64 (pending.map (·.estimatedChunks)).sum }

theorem mem_deleted {previous current : List ManifestFile} {path : String} :
    path ∈ (diffManifest previous current).deleted ↔
      (∃ old ∈ previous, old.path = path) ∧ ∀ file ∈ current, file.path ≠ path := by
  simp only [diffManifest, List.mem_map, List.mem_insertionSort, List.mem_filter, List.all_eq_true,
    bne_iff_ne]
  constructor
  · rintro ⟨old, ⟨stored, gone⟩, rfl⟩
    exact ⟨⟨old, stored, rfl⟩, gone⟩
  · rintro ⟨⟨old, stored, rfl⟩, gone⟩
    exact ⟨old, ⟨stored, gone⟩, rfl⟩

/-- In a manifest without repeated paths, an entry is pending iff it changed. -/
theorem mem_pending {previous current : List ManifestFile}
    (distinct : (current.map (·.path)).Nodup) {file : ManifestFile} (member : file ∈ current) :
    file.path ∈ (diffManifest previous current).pending ↔ changed previous file = true := by
  simp only [diffManifest, List.mem_map, List.mem_filter]
  constructor
  · rintro ⟨other, ⟨listed, differs⟩, same⟩
    rwa [← List.inj_on_of_nodup_map distinct listed member same]
  · exact fun differs => ⟨file, ⟨member, differs⟩, rfl⟩

/-- An entry taken over from the snapshot did not change. -/
theorem not_changed_of_mem {previous : List ManifestFile}
    (distinct : (previous.map (·.path)).Nodup) {file : ManifestFile} (member : file ∈ previous) :
    changed previous file = false := by
  unfold changed
  split
  next missing =>
    have missed := List.find?_eq_none.mp missing file member
    simp at missed
  next old found =>
    have same : old = file := List.inj_on_of_nodup_map distinct (List.mem_of_find?_eq_some found)
      member (by simpa using List.find?_some found)
    simp [same]

/-- Against an empty snapshot every entry is pending and nothing is deleted. -/
theorem diffManifest_nil (current : List ManifestFile) :
    (diffManifest [] current).pending = current.map (·.path) ∧
      (diffManifest [] current).deleted = [] := by
  have all : current.filter (changed []) = current := List.filter_eq_self.mpr fun _ _ => rfl
  simp [diffManifest, all]

/-! ### Repeating a manifest -/

/-- A manifest with the files of the snapshot has nothing to upload and nothing to delete. -/
theorem diffManifest_of_perm {previous current : List ManifestFile}
    (single : (previous.map (·.path)).Nodup) (same : current.Perm previous) :
    (diffManifest previous current).pending = [] ∧ (diffManifest previous current).deleted = [] := by
  have none : current.filter (changed previous) = [] := by
    refine List.filter_eq_nil_iff.mpr fun file member => ?_
    simp [not_changed_of_mem single (same.mem_iff.mp member)]
  refine ⟨by simp [diffManifest, none], List.eq_nil_iff_forall_not_mem.mpr fun path listed => ?_⟩
  obtain ⟨⟨old, stored, rfl⟩, gone⟩ := mem_deleted.mp listed
  exact gone old (same.mem_iff.mpr stored) rfl

/-- The snapshot that a grafted manifest left is what the same manifest, grafted onto
it, gives again. What was carried over the first time is in the snapshot and is carried
over once more; a path that was not in the old snapshot is not in the new one either. -/
theorem graftUnreadablePaths_again {previous files out snapshot again : List ManifestFile}
    {unreadable unreadableAgain : List String} (single : (previous.map (·.path)).Nodup)
    (distinct : (files.map (·.path)).Nodup)
    (accepted : graftUnreadablePaths previous files unreadable = .ok out)
    (published : snapshot.Perm out) (sameFiles : again.Perm files)
    (sameUnreadable : unreadableAgain.Perm unreadable) :
    ∃ result, graftUnreadablePaths snapshot again unreadableAgain = .ok result ∧
      result.Perm snapshot := by
  have distinctOut := graftUnreadablePaths_nodup accepted distinct
  have distinctSnapshot : (snapshot.map (·.path)).Nodup :=
    (published.map (·.path)).nodup_iff.mpr distinctOut
  have distinctAgain : (again.map (·.path)).Nodup :=
    (sameFiles.map (·.path)).nodup_iff.mpr distinct
  have first := graftUnreadablePaths_perm accepted
  have paths (path : String) : path ∈ again.map (·.path) ↔ path ∈ files.map (·.path) :=
    (sameFiles.map (·.path)).mem_iff
  -- the second graft looks into a snapshot that is the first one's result
  have loop : (graftLoop snapshot unreadableAgain again (again.map (·.path))).Perm snapshot := by
    have spec := graftLoop_spec snapshot unreadableAgain again (again.map (·.path)) distinctAgain
      fun file member => List.mem_map_of_mem member
    refine (List.perm_ext_iff_of_nodup (List.Nodup.of_map _ spec.1)
      (List.Nodup.of_map _ distinctSnapshot)).mpr fun file => ?_
    have origin : file ∈ snapshot ↔ file ∈ files ∨ (file ∈ previous ∧ file.path ≠ "" ∧
        file.path ∉ files.map (·.path) ∧
        ∃ rawPath ∈ unreadable, normalizeIndexPath rawPath = file.path) := by
      rw [published.mem_iff, first.mem_iff, mem_graftLoop single]
    rw [mem_graftLoop distinctSnapshot, paths]
    simp only [sameUnreadable.mem_iff, sameFiles.mem_iff]
    constructor
    · rintro (sent | ⟨stored, -⟩)
      · exact origin.mpr (.inl sent)
      · exact stored
    · intro stored
      rcases origin.mp stored with sent | ⟨-, named, absent, listed⟩
      · exact .inl sent
      · exact .inr ⟨stored, named, absent, listed⟩
  -- the limits are on lengths, and those are the first run's
  have fits : ∃ result, graftUnreadablePaths snapshot again unreadableAgain = .ok result := by
    rw [graftUnreadablePaths_ok_iff, loop.length_eq, published.length_eq, first.length_eq,
      sameUnreadable.length_eq]
    refine (graftUnreadablePaths_ok_iff.mp ⟨out, accepted⟩).imp_left fun none => ?_
    rw [none] at sameUnreadable
    exact sameUnreadable.eq_nil
  obtain ⟨result, again⟩ := fits
  exact ⟨result, again, (graftUnreadablePaths_perm again).trans loop⟩

end AcemcpRelay
