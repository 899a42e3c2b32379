import AcemcpRelay.SnapshotSteps
import Mathlib.Data.List.DropRight

/-!
# Root identifiers in the tables

The relay trims a root identifier with `strings.TrimSpace`, its statements compare it with
`BTRIM(root_id)`, which only knows blanks. The two agree on what is stored: a root enters
`index_jobs` with a start, trimmed, and `index_workspaces` from there.
-/
namespace AcemcpRelay

open Store Database

/-- The identifier is one that a start stores. -/
def NormalRoot (rootID : String) : Prop := normalizeIndexRootID rootID = rootID ∧ rootID ≠ ""

/-- Where nothing is left to trim, nothing is left for a weaker trim. -/
theorem trimChars_of_weaker {weak drop : Char → Bool} (weaker : ∀ c, weak c = true → drop c = true)
    {cs : List Char} (trimmed : trimChars drop cs = cs) : trimChars weak cs = cs := by
  rw [trimChars_eq] at trimmed
  have front : cs.dropWhile drop = cs := by
    refine (List.dropWhile_suffix drop).eq_of_length_le ?_
    conv_lhs => rw [← trimmed]
    exact (List.rdropWhile_prefix drop (cs.dropWhile drop)).length_le
  rw [front] at trimmed
  rw [trimChars_eq, List.dropWhile_eq_self_iff.mpr, List.rdropWhile_eq_self_iff.mpr]
  · exact fun nonempty hit => List.rdropWhile_eq_self_iff.mp trimmed nonempty (weaker _ hit)
  · exact fun nonempty hit => List.dropWhile_eq_self_iff.mp front nonempty (weaker _ hit)

theorem NormalRoot.storedRoot_eq {rootID : String} (normal : NormalRoot rootID) :
    storedRoot rootID = rootID := by
  have trimmed : trimChars isSpace rootID.toList = rootID.toList := by
    have same := congrArg String.toList normal.1
    rwa [normalizeIndexRootID, trimSpace, String.toList_ofList] at same
  have blanks : btrim rootID = rootID := by
    rw [btrim, trimChars_of_weaker ?_ trimmed, String.ofList_toList]
    intro c blank
    rw [beq_iff_eq.mp blank]
    decide
  rw [storedRoot, blanks, if_neg normal.2]

theorem NormalRoot.lceIndexRootID_eq {rootID : String} (normal : NormalRoot rootID) :
    lceIndexRootID rootID = rootID := by
  rw [lceIndexRootID, normal.1, if_neg normal.2]

theorem normalRoot_of_accepted {req normalized : StartRequest}
    (accepted : normalizeStartRequest req = .ok normalized) : NormalRoot normalized.rootID := by
  obtain ⟨-, root, named, -⟩ := normalizeStartRequest_eq_ok accepted
  refine ⟨?_, named⟩
  rw [root, normalizeIndexRootID, normalizeIndexRootID, trimSpace_trimSpace]

/-- Every stored root has been trimmed. -/
structure RootsNormal (db : Database) : Prop where
  jobs : ∀ job ∈ db.indexJobs, NormalRoot job.rootID
  workspaces : ∀ workspace ∈ db.indexWorkspaces, NormalRoot workspace.rootID

/-- A completion that knows the root of its job, and every other transaction, keeps roots
trimmed. -/
theorem RootsNormal.exec {db : Database} (normal : RootsNormal db) {now clock : Nat}
    {transaction : Transaction}
    (read : ∀ userID jobID rootID cloudRevision,
      transaction = .complete userID jobID rootID cloudRevision →
        ∀ row ∈ db.indexJobs, row.id = jobID → row.rootID = rootID) :
    RootsNormal (db.exec now clock transaction) where
  jobs := by
    intro job member
    rcases mem_exec_jobs member with ⟨old, stored, change⟩ | ⟨files, created⟩
    · rw [change.sameJob.rootID]
      exact normal.jobs old stored
    · obtain ⟨_, _, _, normalized, _, -, accepted, -, -, same, -⟩ := created
      rw [same]
      exact normalRoot_of_accepted accepted
  workspaces := by
    intro workspace member
    cases db.exec_snapshots now clock transaction with
    | same _ _ workspaces =>
      rw [workspaces] at member
      exact normal.workspaces workspace member
    | described _ _ _ _ normalized accepted _ workspaces =>
      rw [workspaces] at member
      rcases Table.mem_update_cases member with ⟨stored, -⟩ | ⟨old, stored, -, rfl⟩
      · exact normal.workspaces workspace stored
      · exact normalRoot_of_accepted accepted
    -- the completion writes the root it has read, which is that of its job
    | published _ jobID rootID _ job found _ _ workspaces =>
      obtain ⟨stored, named, -⟩ := loadIndexJob_eq_some.mp found
      rcases (Table.mem_insert workspaces).mp member with kept | added
      · exact normal.workspaces workspace (Table.mem_delete.mp kept).1
      · rw [List.mem_singleton.mp added]
        change NormalRoot rootID
        rw [← read _ jobID rootID _ rfl job stored named]
        exact normal.jobs job stored
    | clearedUser _ _ workspaces
    | clearedRoot _ _ _ _ _ workspaces
    | clearedAll _ _ _ workspaces
    | dismissed _ _ _ workspaces =>
      rw [workspaces] at member
      exact normal.workspaces workspace (Table.mem_delete.mp member).1

/-- A workspace row of a root is on that root for the statements that clear it. -/
theorem RootsNormal.onRoot {db : Database} (normal : RootsNormal db) {workspace : IndexWorkspace}
    (stored : workspace ∈ db.indexWorkspaces) {userID rootID : String} :
    workspace.onRoot userID (lceIndexRootID rootID) = true ↔
      workspace.userID = userID ∧ workspace.rootID = lceIndexRootID rootID := by
  rw [IndexWorkspace.onRoot, (normal.workspaces workspace stored).storedRoot_eq, Bool.and_eq_true,
    beq_iff_eq, beq_iff_eq]

end AcemcpRelay
