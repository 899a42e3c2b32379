import AcemcpRelay.Manifest

/-!
# The difference is exact

A start carries the unreadable files over from the last snapshot and compares the result
with that snapshot. What it finds is enough, and no more than enough, to turn the
one into the other.

## Proof strategy

Both lists are sorted and have no path twice, so that a path has at most one entry in
each. The snapshot's entry at a path and the manifest's are compared case by case: at a
path that is deleted there is none in the manifest, at a path that is pending the
manifest's is written, and at every other path the two agree.
-/
namespace AcemcpRelay

/-! ### Order -/

/-- Go's order on strings, without repetition. -/
def SortedPaths (paths : List String) : Prop := paths.Pairwise fun a b => a.toList < b.toList

instance : Std.Total byPath := ⟨fun a b => le_total a.path.toList b.path.toList⟩

instance : IsTrans ManifestFile byPath := ⟨fun _ _ _ => le_trans⟩

theorem sortedPaths_of_byPath {files : List ManifestFile} (ordered : files.Pairwise byPath)
    (distinct : (files.map (·.path)).Nodup) : SortedPaths (files.map (·.path)) := by
  rw [SortedPaths, List.pairwise_map]
  rw [List.Nodup, List.pairwise_map] at distinct
  refine (ordered.and distinct).imp fun {a b} both => lt_of_le_of_ne both.1 fun same => ?_
  exact both.2 (String.toList_inj.mp same)

theorem SortedPaths.filter {files : List ManifestFile} (sorted : SortedPaths (files.map (·.path)))
    (keep : ManifestFile → Bool) : SortedPaths ((files.filter keep).map (·.path)) :=
  List.Pairwise.sublist (List.filter_sublist.map _) sorted

theorem normalizeManifest_sorted {manifest files : List ManifestFile}
    (accepted : normalizeManifest manifest = .ok files) : files.Pairwise byPath := by
  obtain ⟨-, -, -, rfl⟩ := normalizeManifest_eq_ok.mp accepted
  exact List.pairwise_insertionSort byPath _

/-- The loop only appends. -/
theorem graftLoop_append (previous : List ManifestFile) (unreadable : List String)
    (files : List ManifestFile) (current : List String) :
    ∃ added, graftLoop previous unreadable files current = files ++ added := by
  induction unreadable generalizing files current with
  | nil => exact ⟨[], (List.append_nil files).symm⟩
  | cons rawPath rest ih =>
    simp only [graftLoop]
    split
    · exact ih files current
    · split
      · exact ih files _
      next old _ =>
        obtain ⟨added, same⟩ := ih (files ++ [old]) (normalizeIndexPath rawPath :: current)
        exact ⟨old :: added, by rw [same, List.append_assoc, List.singleton_append]⟩

/-- Sorted again if something was added; otherwise the manifest is as it was. -/
theorem graftUnreadablePaths_sorted {previous files result : List ManifestFile}
    {unreadable : List String} (ordered : files.Pairwise byPath)
    (grafted : graftUnreadablePaths previous files unreadable = .ok result) :
    result.Pairwise byPath := by
  unfold graftUnreadablePaths at grafted
  by_cases none : unreadable = []
  · rw [if_pos none, Except.ok.injEq] at grafted
    exact grafted ▸ ordered
  rw [if_neg none] at grafted
  by_cases many : maxIndexManifestFiles < unreadable.length
  · rw [if_pos many] at grafted
    cases grafted
  simp only [if_neg many] at grafted
  split at grafted
  · cases grafted
  split at grafted
  next unchanged =>
    rw [Except.ok.injEq] at grafted
    obtain ⟨added, appended⟩ := graftLoop_append previous unreadable files (files.map (·.path))
    rw [appended, List.length_append, Nat.add_eq_left, List.length_eq_zero_iff] at unchanged
    rw [← grafted, appended, unchanged, List.append_nil]
    exact ordered
  · rw [Except.ok.injEq] at grafted
    exact grafted ▸ List.pairwise_insertionSort byPath _

theorem length_graftUnreadablePaths {previous manifest files result : List ManifestFile}
    {unreadable : List String} (accepted : normalizeManifest manifest = .ok files)
    (grafted : graftUnreadablePaths previous files unreadable = .ok result) :
    result.length ≤ maxIndexManifestFiles := by
  rw [(graftUnreadablePaths_perm grafted).length_eq]
  rcases graftUnreadablePaths_ok_iff.mp ⟨result, grafted⟩ with none | ⟨-, short⟩
  · obtain ⟨short, -, -, rfl⟩ := normalizeManifest_eq_ok.mp accepted
    rw [none, graftLoop, List.length_insertionSort, List.length_map]
    exact short
  · exact short

/-! ### Maps -/

/-- What the files say about a path. -/
def fileAt (files : List ManifestFile) (path : String) : Option (String × Int) :=
  (files.find? (·.path == path)).map fun file => (file.hash, file.size)

theorem fileAt_of_mem {files : List ManifestFile} (distinct : (files.map (·.path)).Nodup)
    {file : ManifestFile} (member : file ∈ files) :
    fileAt files file.path = some (file.hash, file.size) := by
  unfold fileAt
  cases found : files.find? (·.path == file.path) with
  | none =>
    have missed := List.find?_eq_none.mp found file member
    simp at missed
  | some other =>
    have same : other = file := List.inj_on_of_nodup_map distinct
      (List.mem_of_find?_eq_some found) member (by simpa using List.find?_some found)
    rw [same]
    rfl

theorem fileAt_eq_none {files : List ManifestFile} {path : String} :
    fileAt files path = none ↔ ∀ file ∈ files, file.path ≠ path := by
  simp [fileAt]

/-- An entry changed iff the snapshot says something else about its path. -/
theorem changed_iff {previous : List ManifestFile} {file : ManifestFile} :
    changed previous file = true ↔ fileAt previous file.path ≠ some (file.hash, file.size) := by
  unfold changed fileAt
  cases previous.find? (·.path == file.path) with
  | none => simp
  | some old =>
    simp only [Bool.or_eq_true, bne_iff_ne, Option.map_some, ne_eq, Option.some.injEq,
      Prod.mk.injEq, not_and_or]

/-- A snapshot without the deleted paths, with the entries of the manifest at the pending
ones. -/
def ManifestDiff.applyTo (diff : ManifestDiff) (previous current : List ManifestFile) :
    String → Option (String × Int) :=
  diff.pending.foldl (fun files path => Function.update files path (fileAt current path))
    (diff.deleted.foldl (fun files path => Function.update files path none) (fileAt previous))

/-- Writing at a list of paths, in any order, what `value` says. -/
theorem foldl_update (value : String → Option (String × Int)) {paths : List String}
    {files : String → Option (String × Int)} (path : String) :
    paths.foldl (fun files path => Function.update files path (value path)) files path =
      if path ∈ paths then value path else files path := by
  induction paths generalizing files with
  | nil => rfl
  | cons first rest ih =>
    rw [List.foldl_cons, ih]
    by_cases later : path ∈ rest
    · rw [if_pos later, if_pos (List.mem_cons_of_mem _ later)]
    rw [if_neg later]
    by_cases here : path = first
    · rw [here, Function.update_self, if_pos List.mem_cons_self]
    · rw [Function.update_of_ne here, if_neg]
      exact fun member => (List.mem_cons.mp member).elim here later

theorem applyTo_diffManifest {previous current : List ManifestFile}
    (distinct : (current.map (·.path)).Nodup) :
    (diffManifest previous current).applyTo previous current = fileAt current := by
  funext path
  rw [ManifestDiff.applyTo, foldl_update, foldl_update fun _ => none]
  by_cases pending : path ∈ (diffManifest previous current).pending
  · rw [if_pos pending]
  rw [if_neg pending]
  by_cases deleted : path ∈ (diffManifest previous current).deleted
  · rw [if_pos deleted, fileAt_eq_none.mpr (mem_deleted.mp deleted).2]
  rw [if_neg deleted]
  -- neither written nor removed: the two agree, or both have nothing there
  by_cases listed : ∃ file ∈ current, file.path = path
  · obtain ⟨file, member, rfl⟩ := listed
    rw [mem_pending distinct member, changed_iff, not_not] at pending
    rw [pending, fileAt_of_mem distinct member]
  · have absent : ∀ file ∈ current, file.path ≠ path :=
      fun file member same => listed ⟨file, member, same⟩
    rw [fileAt_eq_none.mpr absent, fileAt_eq_none]
    intro old stored same
    exact deleted (mem_deleted.mpr ⟨⟨old, stored, same⟩, absent⟩)

/-! ### The result -/

theorem mem_graftUnreadablePaths {previous files result : List ManifestFile}
    {unreadable : List String} (single : (previous.map (·.path)).Nodup)
    (grafted : graftUnreadablePaths previous files unreadable = .ok result) {file : ManifestFile} :
    file ∈ result ↔ file ∈ files ∨ (file ∈ previous ∧ file.path ∉ files.map (·.path) ∧
      file.path ∈ unreadablePaths unreadable) := by
  rw [(graftUnreadablePaths_perm grafted).mem_iff, mem_graftLoop single, mem_unreadablePaths]
  refine or_congr_right (and_congr_right fun _ => ?_)
  constructor
  · exact fun ⟨named, absent, listed⟩ => ⟨absent, named, listed⟩
  · exact fun ⟨absent, named, listed⟩ => ⟨named, absent, listed⟩

/-- An unreadable file of the snapshot is in the result, so that it is not deleted. -/
theorem unreadable_not_deleted {previous files result : List ManifestFile}
    {unreadable : List String} (single : (previous.map (·.path)).Nodup)
    (grafted : graftUnreadablePaths previous files unreadable = .ok result) {path : String}
    (listed : path ∈ unreadablePaths unreadable) :
    path ∉ (diffManifest previous result).deleted := by
  intro deleted
  obtain ⟨⟨old, stored, rfl⟩, absent⟩ := mem_deleted.mp deleted
  by_cases sent : old.path ∈ files.map (·.path)
  · obtain ⟨file, member, same⟩ := List.mem_map.mp sent
    exact absent file ((mem_graftUnreadablePaths single grafted).mpr (.inl member)) same
  · exact absent old ((mem_graftUnreadablePaths single grafted).mpr (.inr ⟨stored, sent, listed⟩)) rfl

theorem deleted_sorted {previous : List ManifestFile} (single : (previous.map (·.path)).Nodup)
    (current : List ManifestFile) : SortedPaths (diffManifest previous current).deleted := by
  refine sortedPaths_of_byPath (List.pairwise_insertionSort byPath _) ?_
  have sorted := (List.perm_insertionSort byPath
    (previous.filter fun old => current.all fun file => file.path != old.path)).map (·.path)
  exact sorted.nodup_iff.mpr (single.sublist (List.filter_sublist.map _))

/-- The estimates of the files that are pending. -/
def pendingEstimates (previous current : List ManifestFile) : List Int :=
  (current.filter fun file => file.path ∈ (diffManifest previous current).pending).map
    (·.estimatedChunks)

theorem pendingEstimates_eq {previous current : List ManifestFile}
    (distinct : (current.map (·.path)).Nodup) :
    pendingEstimates previous current =
      (current.filter (changed previous)).map (·.estimatedChunks) := by
  unfold pendingEstimates
  congr 1
  refine List.filter_congr fun file member => ?_
  simp only [mem_pending distinct member, Bool.decide_eq_true]

/-- Below `2 ^ 31` each, the estimates of a manifest add up without overflow. -/
theorem int64_sum {estimates : List Int} (few : estimates.length ≤ maxIndexManifestFiles)
    (fits : ∀ estimate ∈ estimates, 0 ≤ estimate ∧ estimate < 2 ^ 31) :
    int64 estimates.sum = estimates.sum := by
  have bounds : 0 ≤ estimates.sum ∧ estimates.sum ≤ estimates.length * 2 ^ 31 := by
    clear few
    induction estimates with
    | nil => simp
    | cons first rest ih =>
      have head := fits first List.mem_cons_self
      have tail := ih fun estimate member => fits estimate (List.mem_cons_of_mem _ member)
      rw [List.sum_cons, List.length_cons]
      push_cast
      omega
  have short : (estimates.length : Int) ≤ 100000 := by
    have := few
    unfold maxIndexManifestFiles at this
    omega
  unfold int64
  rw [Int.bmod_eq_of_le] <;> omega

/-- **Diff and graft are exact.** The estimates of a manifest are `int64` and so is their
total; a manifest that the tool accepts, and a snapshot that a table holds, have estimates
far below the bound at which it could overflow. -/
theorem diff_and_graft_exact {previous manifest files result : List ManifestFile}
    {unreadable : List String} (single : (previous.map (·.path)).Nodup)
    (accepted : normalizeManifest manifest = .ok files)
    (grafted : graftUnreadablePaths previous files unreadable = .ok result) :
    SortedPaths (result.map (·.path)) ∧
      (∀ file, file ∈ result ↔ file ∈ files ∨ (file ∈ previous ∧ file.path ∉ files.map (·.path) ∧
        file.path ∈ unreadablePaths unreadable)) ∧
      (∀ path, path ∈ (diffManifest previous result).pending ↔
        ∃ file ∈ result, file.path = path ∧ ∀ old ∈ previous, old.path = path →
          old.hash ≠ file.hash ∨ old.size ≠ file.size) ∧
      SortedPaths (diffManifest previous result).pending ∧
      (∀ path, path ∈ (diffManifest previous result).deleted ↔
        path ∈ previous.map (·.path) ∧ path ∉ result.map (·.path)) ∧
      SortedPaths (diffManifest previous result).deleted ∧
      (diffManifest previous result).deleted.Disjoint (diffManifest previous result).pending ∧
      (∀ path ∈ unreadablePaths unreadable, path ∉ (diffManifest previous result).deleted) ∧
      (diffManifest previous result).estimatedChunks = int64 (pendingEstimates previous result).sum ∧
      ((∀ file ∈ result, 0 ≤ file.estimatedChunks ∧ file.estimatedChunks < 2 ^ 31) →
        (diffManifest previous result).estimatedChunks = (pendingEstimates previous result).sum) ∧
      (diffManifest previous result).applyTo previous result = fileAt result := by
  have distinct := graftUnreadablePaths_nodup grafted (normalizeManifest_nodup accepted)
  have sorted := sortedPaths_of_byPath
    (graftUnreadablePaths_sorted (normalizeManifest_sorted accepted) grafted) distinct
  have deleted (path : String) : path ∈ (diffManifest previous result).deleted ↔
      path ∈ previous.map (·.path) ∧ path ∉ result.map (·.path) := by
    rw [mem_deleted]
    simp
  have pending (path : String) : path ∈ (diffManifest previous result).pending ↔
      ∃ file ∈ result, file.path = path ∧ ∀ old ∈ previous, old.path = path →
        old.hash ≠ file.hash ∨ old.size ≠ file.size := by
    simp only [diffManifest, List.mem_map, List.mem_filter, changed_iff]
    constructor
    · rintro ⟨file, ⟨member, differs⟩, rfl⟩
      refine ⟨file, member, rfl, fun old stored same => ?_⟩
      rw [← same, fileAt_of_mem single stored, ne_eq, Option.some.injEq, Prod.mk.injEq,
        not_and_or] at differs
      exact differs
    · rintro ⟨file, member, rfl, differs⟩
      refine ⟨file, ⟨member, fun agrees => ?_⟩, rfl⟩
      obtain ⟨old, found, same⟩ := Option.map_eq_some_iff.mp agrees
      rw [Prod.mk.injEq] at same
      rcases differs old (List.mem_of_find?_eq_some found) (by simpa using List.find?_some found) with
        other | other
      · exact other same.1
      · exact other same.2
  refine ⟨sorted, fun file => mem_graftUnreadablePaths single grafted, pending, sorted.filter _,
    deleted, deleted_sorted single result, ?_, fun path => unreadable_not_deleted single grafted,
    by rw [pendingEstimates_eq distinct]; rfl, fun fits => ?_, applyTo_diffManifest distinct⟩
  · intro path gone written
    obtain ⟨file, member, same, -⟩ := (pending path).mp written
    exact ((deleted path).mp gone).2 (List.mem_map.mpr ⟨file, member, same⟩)
  · rw [pendingEstimates_eq distinct]
    refine int64_sum ?_ fun estimate member => ?_
    · rw [List.length_map]
      exact (List.length_filter_le _ _).trans (length_graftUnreadablePaths accepted grafted)
    · obtain ⟨file, kept, rfl⟩ := List.mem_map.mp member
      exact fits file (List.mem_of_mem_filter kept)

/-- A snapshot of three files. -/
def threeIndexed : List ManifestFile :=
  [⟨"a.go", "h1", 1, 1, ""⟩, ⟨"b.go", "h2", 2, 1, ""⟩, ⟨"c.go", "h3", 3, 1, ""⟩]

/-- What can be read later: one file has changed and one is new. -/
def twoReadable : List ManifestFile := [⟨"a.go", "h4", 1, 2, ""⟩, ⟨"d.go", "h5", 5, 3, ""⟩]

/-- One of the other two is still there and cannot be read. -/
def withUnreadable : List ManifestFile :=
  [⟨"a.go", "h4", 1, 2, ""⟩, ⟨"c.go", "h3", 3, 1, ""⟩, ⟨"d.go", "h5", 5, 3, ""⟩]

theorem diff_and_graft_exact_unreadable :
    graftUnreadablePaths threeIndexed twoReadable ["./c.go", "gone.go"] = .ok withUnreadable ∧
      diffManifest threeIndexed withUnreadable = ⟨["a.go", "d.go"], ["b.go"], 5⟩ ∧
      (diffManifest threeIndexed withUnreadable).applyTo threeIndexed withUnreadable =
        fileAt withUnreadable := by
  have accepted : normalizeManifest [⟨"d.go", "h5", 5, 3, ""⟩, ⟨"./a.go", "h4", 1, 2, ""⟩] =
      .ok twoReadable := by decide +kernel
  have grafted : graftUnreadablePaths threeIndexed twoReadable ["./c.go", "gone.go"] =
      .ok withUnreadable := by decide +kernel
  have found := diff_and_graft_exact (by decide) accepted grafted
  exact ⟨grafted, by decide +kernel, found.2.2.2.2.2.2.2.2.2.2⟩

end AcemcpRelay
