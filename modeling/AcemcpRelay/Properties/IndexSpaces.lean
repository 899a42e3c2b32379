import AcemcpRelay.IndexArguments
import AcemcpRelay.JobSteps
import Mathlib.Data.Bool.AllAny

/-!
# White space around operations and job identifiers

Two argument maps of `codebase_index` that differ only in the white space around the operation
and the job identifier have one answer and one effect, if the operation is not a heartbeat. To
this end each decoder is carried across `Arguments.trimmed`, which removes that white space.

A heartbeat is dispatched by its trimmed operation, but then compared as it was sent: with a
blank it is answered like a status, and with a blank before the job identifier it is refused by
the database. This is seen exactly where the job is running and not publishing.
-/
namespace AcemcpRelay

open Store Wire

/-! ### Trimming -/

def ArgumentValue.trim : ArgumentValue → ArgumentValue
  | .text value => .text (trimSpace value)
  | value => value

/-- The key goes to the operation or to the job identifier. -/
def namesTrimmed (key : String) : Bool :=
  foldName key == foldName "operation" || foldName key == foldName "job_id"

def trimMember (member : String × ArgumentValue) : String × ArgumentValue :=
  (member.1, if namesTrimmed member.1 then member.2.trim else member.2)

/-- The arguments without white space around the operation and the job identifier. -/
def Arguments.trimmed (raw : Arguments) : Arguments :=
  raw.update (fun _ => true) trimMember

namespace Arguments

/-- The two differ in the white space around the operation and the job identifier only. -/
def SameButSpaces (raw other : Arguments) : Prop := raw.trimmed.rows = other.trimmed.rows

instance (raw other : Arguments) : Decidable (raw.SameButSpaces other) :=
  inferInstanceAs (Decidable (raw.trimmed.rows = other.trimmed.rows))

variable {raw : Arguments} {field : String}

theorem eq_of_rows {other : Arguments} (same : raw.rows = other.rows) : raw = other := by
  obtain ⟨rows, _⟩ := raw
  cases same
  rfl

theorem rows_trimmed : raw.trimmed.rows = raw.rows.map trimMember := by
  simp only [trimmed, Table.update, if_true]

theorem sorted_trimmed : raw.trimmed.sorted = raw.sorted.map trimMember := by
  rw [sorted, sorted, rows_trimmed]
  exact (List.map_insertionSort inKeyOrder inKeyOrder trimMember raw.rows
    fun _ _ _ _ => Iff.rfl).symm

theorem get_trimmed :
    raw.trimmed.get field =
      (raw.get field).map fun value => if namesTrimmed field then value.trim else value := by
  rw [get, get, Table.lookup, Table.lookup, rows_trimmed, List.find?_map, Option.map_map,
    Option.map_map]
  change Option.map _ (raw.rows.find? fun row => decide (row.1 = field)) = _
  cases found : raw.rows.find? fun row => decide (row.1 = field) with
  | none => rfl
  | some row =>
    have named := List.find?_some found
    rw [decide_eq_true_eq] at named
    rw [Option.map_some, Option.map_some, ← named]
    rfl

theorem given_trimmed (other : namesTrimmed field = false) :
    raw.trimmed.given field = raw.given field := by
  rw [given, given, get_trimmed, other]
  simp

theorem operation_trimmed : raw.trimmed.text "operation" = trimSpace (raw.text "operation") := by
  have named : namesTrimmed "operation" = true := by decide
  have empty : trimSpace "" = "" := by decide
  rw [text, text, get_trimmed, named]
  rcases raw.get "operation" with _ | _ | value | encoded
  · exact empty.symm
  · exact empty.symm
  · rfl
  · exact empty.symm

/-- The key `operation` is read after every other key that goes to the same field. -/
theorem text_operation {type : StructType} (has : "operation" ∈ type.fields)
    (sent : raw.text "operation" ≠ "") :
    type.text "operation" raw.sorted = raw.text "operation" := by
  obtain ⟨value, found⟩ : ∃ value, raw.get "operation" = some (.text value) := by
    unfold text at sent
    split at sent
    next value found => exact ⟨value, found⟩
    · exact absurd rfl sent
  have listed : ("operation", .text value) ∈ raw.sorted.filter (·.2 != .null) :=
    List.mem_filter.mpr ⟨(List.mem_insertionSort _).mpr (get_eq_some.mp found), by simp⟩
  have unique : ((raw.sorted.filter (·.2 != .null)).map (·.1)).Nodup :=
    ((((List.perm_insertionSort _ raw.rows).map _).nodup_iff).mpr raw.unique).sublist
      (List.filter_sublist.map _)
  have letters : ∀ c ∈ "operation".toList, Greatest c := by
    intro c member
    have lower : ∀ c ∈ "operation".toList, (97 ≤ c.toNat ∧ c.toNat ≤ 122) ∧ c.toNat ≠ 115 ∧
      c.toNat ≠ 107 := List.all_iff_forall_prop.mp (by decide +kernel)
    obtain ⟨range, s, k⟩ := lower c member
    exact greatest_of_lower range s k
  have ordered : raw.sorted.Pairwise inKeyOrder := List.pairwise_insertionSort _ _
  have last := getLast?_assigned (ordered.filter _) unique has letters listed
  rw [StructType.text, last, text, found]

end Arguments

/-! ### Decoding -/

section

variable {type : StructType} {lists : ListDecoder} {field : String}
  {members : List (String × ArgumentValue)}

theorem namesTrimmed_of_fieldFor {names : List String} {key : String}
    (found : fieldFor names key = some field) : namesTrimmed key = namesTrimmed field := by
  rw [namesTrimmed, namesTrimmed, foldName_of_fieldFor found]

/-- The struct has neither an operation nor a job identifier among its lists. -/
def StructType.Plain (type : StructType) : Prop := ∀ field ∈ type.lists, namesTrimmed field = false

theorem memberError_trimMember (plain : type.Plain) (member : String × ArgumentValue) :
    type.memberError lists (trimMember member) = type.memberError lists member := by
  unfold StructType.memberError
  cases found : fieldFor type.fields member.1 with
  | none => simp only [trimMember, found]
  | some field =>
    simp only [trimMember, found]
    split
    · cases member.2 <;> split <;> rfl
    next other =>
      have listed : field ∈ type.lists :=
        (List.mem_append.mp (mem_of_fieldFor found)).resolve_left other
      rw [namesTrimmed_of_fieldFor found, plain field listed, if_neg Bool.false_ne_true]

theorem assigned_trimMember {names : List String} :
    assigned names field (members.map trimMember) =
      (assigned names field members).map fun value =>
        if namesTrimmed field then value.trim else value := by
  rw [assigned, assigned, List.filter_map, List.map_map, List.map_map]
  apply List.map_congr_left
  intro member kept
  have found := beq_iff_eq.mp (List.mem_filter.mp kept).2
  have same : namesTrimmed member.1 = namesTrimmed field := namesTrimmed_of_fieldFor found
  simp only [Function.comp, trimMember, same]

theorem filter_trimMember :
    (members.map trimMember).filter (·.2 != .null) =
      (members.filter (·.2 != .null)).map trimMember := by
  have null : ((·.2 != ArgumentValue.null) ∘ trimMember) = (·.2 != .null) := by
    funext ⟨key, value⟩
    simp only [Function.comp, trimMember]
    split
    · cases value <;> rfl
    · rfl
  rw [List.filter_map, null]

theorem text_trimMember :
    type.text field (members.map trimMember) =
      if namesTrimmed field then trimSpace (type.text field members)
      else type.text field members := by
  have empty : trimSpace "" = "" := by decide
  rw [StructType.text, StructType.text, filter_trimMember, assigned_trimMember, List.getLast?_map]
  rcases (assigned type.fields field _).getLast? with _ | _ | value | encoded
  all_goals cases namesTrimmed field <;> simp [ArgumentValue.trim, empty]

/-- What is read from trimmed arguments, if `trim` says what that changes in the struct. -/
theorem decode_trimmed {Input : Type} {read : List (String × ArgumentValue) → Input}
    {trim : Input → Input} (plain : type.Plain)
    (reads : ∀ members, read (members.map trimMember) = trim (read members)) (raw : Arguments) :
    decodeStrictIndexArgs lists type read raw.trimmed =
      (decodeStrictIndexArgs lists type read raw).map trim := by
  have errors : type.memberError lists ∘ trimMember = type.memberError lists :=
    funext (memberError_trimMember plain)
  rw [decodeStrictIndexArgs, decodeStrictIndexArgs, Arguments.sorted_trimmed, List.findSome?_map,
    errors, reads]
  split <;> rfl

end

section

variable {lists : ListDecoder} {check : String → Except String Unit} {raw : Arguments}

def MCPIndexJobArgs.trim (input : MCPIndexJobArgs) : MCPIndexJobArgs :=
  ⟨trimSpace input.operation, trimSpace input.jobID⟩

theorem start_trimmed : (strictDecoder lists).start raw.trimmed = (strictDecoder lists).start raw := by
  have plain : mcpIndexStartArgs.Plain := by unfold StructType.Plain; decide
  have others : ∀ field ∈ ["root_id", "workspace_name", "branch", "revision", "client_version",
    "files", "unreadable_files"], namesTrimmed field = false := by decide
  have reads : (strictDecoder lists).start raw.trimmed = ((strictDecoder lists).start raw).map id := by
    refine decode_trimmed plain (fun members => ?_) raw
    simp [readStart, text_trimMember, assigned_trimMember, others]
  rw [reads]
  cases (strictDecoder lists).start raw <;> rfl

theorem upload_trimmed : (strictDecoder lists).upload raw.trimmed =
    ((strictDecoder lists).upload raw).map fun input =>
      { input with jobID := trimSpace input.jobID } := by
  have plain : mcpIndexUploadArgs.Plain := by unfold StructType.Plain; decide
  have job : namesTrimmed "job_id" = true := by decide
  have others : ∀ field ∈ ["root_id", "files"], namesTrimmed field = false := by decide
  refine decode_trimmed plain (fun members => ?_) raw
  simp [readUpload, text_trimMember, assigned_trimMember, others, job]

theorem job_trimmed : (strictDecoder lists).job raw.trimmed =
    ((strictDecoder lists).job raw).map MCPIndexJobArgs.trim := by
  have plain : mcpIndexJobArgs.Plain := by unfold StructType.Plain; decide
  have both : namesTrimmed "operation" = true ∧ namesTrimmed "job_id" = true := by decide
  refine decode_trimmed plain (fun members => ?_) raw
  simp [readJob, text_trimMember, both, MCPIndexJobArgs.trim]

theorem fail_trimmed : (strictDecoder lists).fail raw.trimmed =
    ((strictDecoder lists).fail raw).map fun input =>
      { input with jobID := trimSpace input.jobID } := by
  have plain : mcpIndexFailArgs.Plain := by unfold StructType.Plain; decide
  have job : namesTrimmed "job_id" = true := by decide
  have others : ∀ field ∈ ["error", "error_code", "error_origin", "recovery"],
    namesTrimmed field = false := by decide
  refine decode_trimmed plain (fun members => ?_) raw
  simp [readFail, text_trimMember, others, job]

/-! ### Calls -/

theorem operation_of_job {input : MCPIndexJobArgs} (sent : raw.text "operation" ≠ "")
    (decoded : (strictDecoder lists).job raw = .ok input) :
    input.operation = raw.text "operation" := by
  change decodeStrictIndexArgs lists mcpIndexJobArgs readJob raw = .ok input at decoded
  unfold decodeStrictIndexArgs at decoded
  split at decoded
  · simp at decoded
  · rw [← Except.ok.inj decoded]
    exact Arguments.text_operation (by decide) sent

theorem checkJobID_trimSpace (jobID : String) : checkJobID (trimSpace jobID) = checkJobID jobID := by
  rw [checkJobID, checkJobID, trimSpace_trimSpace]

theorem uploadRequest_trimSpace (input : MCPIndexUploadArgs) :
    uploadRequest { input with jobID := trimSpace input.jobID } = uploadRequest input := by
  rw [uploadRequest, uploadRequest, trimSpace_trimSpace]

def IndexCall.trim : IndexCall → IndexCall
  | .operation op => .operation op
  | .status jobID => .status (trimSpace jobID)
  | .heartbeat jobID => .heartbeat (trimSpace jobID)

/-- The operation that is decoded is the one that was dispatched on, with its blanks. -/
theorem handleCodebaseIndex_job (dispatched : trimSpace (raw.text "operation") = "status" ∨
      trimSpace (raw.text "operation") = "heartbeat") :
    handleCodebaseIndex (strictDecoder lists) check raw = do
      let input ← (strictDecoder lists).job raw
      checkJobID input.jobID
      return if raw.text "operation" = "heartbeat" then .heartbeat input.jobID
        else .status input.jobID := by
  have sent : raw.text "operation" ≠ "" := by
    intro empty
    rw [empty] at dispatched
    exact absurd dispatched (by decide)
  have start : trimSpace (raw.text "operation") ≠ "start" := by
    rcases dispatched with same | same <;> rw [same] <;> decide
  have upload : trimSpace (raw.text "operation") ≠ "upload" := by
    rcases dispatched with same | same <;> rw [same] <;> decide
  simp only [handleCodebaseIndex, if_neg start, if_neg upload, if_pos dispatched]
  cases decoded : (strictDecoder lists).job raw with
  | error => rfl
  | ok input => rw [ok_bind, ok_bind, operation_of_job sent decoded]

theorem heartbeat_sent {jobID : String}
    (called : handleCodebaseIndex (strictDecoder lists) check raw = .ok (.heartbeat jobID)) :
    trimSpace (raw.text "operation") = "heartbeat" := by
  by_contra other
  have plain : raw.text "operation" ≠ "heartbeat" := by
    intro sent
    rw [sent] at other
    exact other (by decide)
  by_cases status : trimSpace (raw.text "operation") = "status"
  · simp only [handleCodebaseIndex_job (.inl status), if_neg plain, bind_ok_iff, pure_ok_iff,
      reduceCtorEq, and_false, exists_false] at called
  · have neither := not_or.mpr ⟨status, other⟩
    unfold handleCodebaseIndex at called
    simp only [if_neg neither] at called
    repeat' split at called
    all_goals simp only [bind_ok_iff, pure_ok_iff, reduceCtorEq, and_false, exists_false] at called

theorem handleCodebaseIndex_trimmed (other : trimSpace (raw.text "operation") ≠ "heartbeat") :
    handleCodebaseIndex (strictDecoder lists) check raw.trimmed =
      (handleCodebaseIndex (strictDecoder lists) check raw).map IndexCall.trim := by
  by_cases status : trimSpace (raw.text "operation") = "status"
  · have plain : raw.text "operation" ≠ "heartbeat" := by
      intro sent
      rw [sent] at other
      exact other (by decide)
    have dispatched : trimSpace (raw.trimmed.text "operation") = "status" := by
      rw [Arguments.operation_trimmed, trimSpace_trimSpace, status]
    rw [handleCodebaseIndex_job (.inl status), handleCodebaseIndex_job (.inl dispatched)]
    simp only [Arguments.operation_trimmed, job_trimmed, bind_of_map, map_of_bind, map_of_pure,
      MCPIndexJobArgs.trim, checkJobID_trimSpace, if_neg other, if_neg plain, IndexCall.trim]
  have neither := not_or.mpr ⟨status, other⟩
  have files : requireIndexArgument raw.trimmed "files" = requireIndexArgument raw "files" := by
    rw [requireIndexArgument, requireIndexArgument, Arguments.given_trimmed (by decide)]
  have error : requireIndexArgument raw.trimmed "error" = requireIndexArgument raw "error" := by
    rw [requireIndexArgument, requireIndexArgument, Arguments.given_trimmed (by decide)]
  unfold handleCodebaseIndex
  simp only [Arguments.operation_trimmed, trimSpace_trimSpace, files, error, start_trimmed,
    upload_trimmed, job_trimmed, fail_trimmed, bind_of_map, uploadRequest_trimSpace,
    checkJobID_trimSpace, MCPIndexJobArgs.trim, if_neg neither]
  -- every other operation keeps no blanks of its arguments
  split
  · simp only [map_of_bind, map_of_pure, IndexCall.trim]
  split
  · simp only [map_of_bind, map_of_pure, IndexCall.trim]
  split
  · simp only [map_of_bind, map_of_pure, IndexCall.trim]
  split
  · simp only [map_of_bind, map_of_pure, IndexCall.trim]
  · rfl

variable {now : Nat} {userID : String} {renew : String → String → Except String Unit}
  {db : Database}

theorem getIndexJobByText_trimSpace (jobID : String) :
    db.getIndexJobByText userID (trimSpace jobID) = db.getIndexJobByText userID jobID := by
  rw [Database.getIndexJobByText, Database.getIndexJobByText, trimSpace_trimSpace]

/-- The answer to a call, if the arguments are accepted. -/
def respond (lists : ListDecoder) (check : String → Except String Unit) (now : Nat)
    (userID : String) (renew : String → String → Except String Unit) (raw : Arguments)
    (db : Database) : Except String IndexAnswer :=
  (handleCodebaseIndex (strictDecoder lists) check raw).map (IndexCall.answer now userID renew db)

theorem respond_trimmed (other : trimSpace (raw.text "operation") ≠ "heartbeat") :
    respond lists check now userID renew raw.trimmed db =
      respond lists check now userID renew raw db := by
  have same : ∀ call : IndexCall, (∀ jobID, call ≠ .heartbeat jobID) →
      call.trim.answer now userID renew db = call.answer now userID renew db := by
    intro call status
    cases call with
    | operation => rfl
    | status jobID => simp only [IndexCall.trim, IndexCall.answer, getIndexJobByText_trimSpace]
    | heartbeat jobID => exact absurd rfl (status jobID)
  rw [respond, respond, handleCodebaseIndex_trimmed other]
  cases called : handleCodebaseIndex (strictDecoder lists) check raw with
  | error => rfl
  | ok call =>
    simp only [Except.map]
    rw [same call]
    rintro jobID rfl
    exact other (heartbeat_sent called)

/-! ### Heartbeats -/

/-- The call is a heartbeat, up to white space, and reaches a job that a heartbeat keeps alive. -/
structure Arguments.Beats (lists : ListDecoder) (userID : String) (db : Database) (raw : Arguments)
    (input : MCPIndexJobArgs) (job : IndexJob) : Prop where
  operation : trimSpace (raw.text "operation") = "heartbeat"
  decoded : (strictDecoder lists).job raw = .ok input
  valid : checkJobID input.jobID = .ok ()
  found : db.getIndexJobByText userID input.jobID = .ok job
  running : job.status = .running ∧ job.phase ≠ .publishing

section

variable {input input' : MCPIndexJobArgs} {job : IndexJob} {other : Arguments}

/-- The decoder reads the same from both, up to white space. -/
theorem job_of_same (lists : ListDecoder) (same : raw.SameButSpaces other) :
    ((strictDecoder lists).job raw).map MCPIndexJobArgs.trim =
      ((strictDecoder lists).job other).map MCPIndexJobArgs.trim := by
  rw [← job_trimmed, ← job_trimmed, Arguments.eq_of_rows same]

theorem operation_of_same (same : raw.SameButSpaces other) :
    trimSpace (raw.text "operation") = trimSpace (other.text "operation") := by
  rw [← Arguments.operation_trimmed, Arguments.eq_of_rows same, Arguments.operation_trimmed]

theorem Arguments.Beats.of_same (beats : raw.Beats lists userID db input job)
    (same : raw.SameButSpaces other) : ∃ input', other.Beats lists userID db input' job := by
  have decoded := job_of_same lists same
  rw [beats.decoded] at decoded
  cases read : (strictDecoder lists).job other with
  | error message =>
    rw [read] at decoded
    cases decoded
  | ok input' =>
    rw [read] at decoded
    have jobs : trimSpace input.jobID = trimSpace input'.jobID :=
      congrArg MCPIndexJobArgs.jobID (Except.ok.inj decoded)
    refine ⟨input', (operation_of_same same).symm.trans beats.operation, read, ?_, ?_, beats.running⟩
    · rw [← checkJobID_trimSpace, ← jobs, checkJobID_trimSpace, beats.valid]
    · rw [← getIndexJobByText_trimSpace, ← jobs, getIndexJobByText_trimSpace, beats.found]

theorem Arguments.Beats.listed (beats : raw.Beats lists userID db input job) :
    job ∈ db.indexJobs ∧ job.userID = userID ∧
      ∃ id, postgresUUID (trimSpace input.jobID) = some id ∧ job.id = id := by
  have found := beats.found
  simp only [Database.getIndexJobByText] at found
  split at found
  · cases found
  · split at found
    · cases found
    next id read =>
      simp only [Database.getIndexJob] at found
      split at found
      · cases found
      next loaded =>
        rw [Except.ok.inj found] at loaded
        obtain ⟨listed, named, owned⟩ := Database.loadIndexJob_eq_some.mp loaded
        exact ⟨listed, owned, id, read, named⟩

/-- Such a call is answered as it is spelled. -/
theorem respond_of_beats (beats : raw.Beats lists userID db input job) :
    respond lists check now userID renew raw db = .ok
      (if raw.text "operation" = "heartbeat" then heartbeatByText now userID input.jobID renew db
        else .answered (.ok job) db []) := by
  rw [respond, handleCodebaseIndex_job (.inr beats.operation), beats.decoded, ok_bind, beats.valid,
    ok_bind]
  split
  · rfl
  · simp only [Except.map, IndexCall.answer, beats.found, pure, Except.pure]

/-- A heartbeat without blanks around the job identifier reaches the row that the first look
found. -/
theorem heartbeatByText_tight (now : Nat) (renew : String → String → Except String Unit)
    (beats : raw.Beats lists userID db input job) (tight : trimSpace input.jobID = input.jobID) :
    (∃ answer, heartbeatByText now userID input.jobID renew db =
      .answered answer (db.heartbeat now userID job.id) [(input.jobID, job.rootID)]) ∧
      { job with heartbeatAt := now } ∈ (db.heartbeat now userID job.id).indexJobs := by
  obtain ⟨listed, owned, id, read, named⟩ := beats.listed
  have hit : (job.runningAs userID job.id && job.phase != .publishing) = true := by
    simp [IndexJob.runningAs, owned, beats.running.1, beats.running.2]
  refine ⟨?_, Table.mem_update_of_hit listed hit⟩
  rw [tight] at read
  simp only [heartbeatByText, beats.found, if_pos beats.running, read, ← named]
  split
  · exact ⟨_, rfl⟩
  · split <;> exact ⟨_, rfl⟩

/-- With blanks it is refused by the database. -/
theorem heartbeatByText_blank (beats : raw.Beats lists userID db input job)
    (blank : trimSpace input.jobID ≠ input.jobID) :
    heartbeatByText now userID input.jobID renew db =
      .answered (.error (invalidUUID input.jobID)) db [] := by
  have unread : postgresUUID input.jobID = none := by
    cases read : postgresUUID input.jobID with
    | none => rfl
    | some id => exact absurd (trimSpace_of_postgresUUID read) blank
  simp only [heartbeatByText, beats.found, if_pos beats.running, unread]

theorem append_middle_inj {x a b y : String} (same : x ++ a ++ y = x ++ b ++ y) : a = b := by
  have lists := congrArg String.toList same
  simp only [String.toList_append] at lists
  exact String.toList_inj.mp (List.append_cancel_left (List.append_cancel_right lists))

/-- Two heartbeats of one job are answered alike exactly if both are spelled without blanks
around the operation or both with some, and in the first case with the same job identifier. -/
theorem respond_eq_iff_of_beats (beats : raw.Beats lists userID db input job)
    (beats' : other.Beats lists userID db input' job) :
    respond lists check now userID renew raw db = respond lists check now userID renew other db ↔
      (raw.text "operation" = "heartbeat" ↔ other.text "operation" = "heartbeat") ∧
        (raw.text "operation" = "heartbeat" → input.jobID = input'.jobID) := by
  -- a heartbeat that is taken as such never answers like a status
  have apart {raw : Arguments} {input : MCPIndexJobArgs}
      (beats : raw.Beats lists userID db input job) :
      heartbeatByText now userID input.jobID renew db ≠ .answered (.ok job) db [] := by
    intro same
    by_cases tight : trimSpace input.jobID = input.jobID
    · obtain ⟨⟨answer, answered⟩, -⟩ := heartbeatByText_tight now renew beats tight
      rw [answered, IndexAnswer.answered.injEq] at same
      exact List.cons_ne_nil _ _ same.2.2
    · rw [heartbeatByText_blank beats tight, IndexAnswer.answered.injEq] at same
      cases same.1
  have sameJob (same : heartbeatByText now userID input.jobID renew db =
      heartbeatByText now userID input'.jobID renew db) : input.jobID = input'.jobID := by
    by_cases tight : trimSpace input.jobID = input.jobID
    · obtain ⟨⟨answer, answered⟩, -⟩ := heartbeatByText_tight now renew beats tight
      rw [answered] at same
      by_cases tight' : trimSpace input'.jobID = input'.jobID
      · obtain ⟨⟨answer', answered'⟩, -⟩ :=
          heartbeatByText_tight now renew beats' tight'
        rw [answered'] at same
        simp only [IndexAnswer.answered.injEq, List.cons.injEq, Prod.mk.injEq] at same
        exact same.2.2.1.1
      · rw [heartbeatByText_blank beats' tight', IndexAnswer.answered.injEq] at same
        exact absurd same.2.2 (List.cons_ne_nil _ _)
    · rw [heartbeatByText_blank beats tight] at same
      by_cases tight' : trimSpace input'.jobID = input'.jobID
      · obtain ⟨⟨answer', answered'⟩, -⟩ :=
          heartbeatByText_tight now renew beats' tight'
        rw [answered', IndexAnswer.answered.injEq] at same
        exact absurd same.2.2.symm (List.cons_ne_nil _ _)
      · rw [heartbeatByText_blank beats' tight'] at same
        simp only [IndexAnswer.answered.injEq, Except.error.injEq] at same
        exact append_middle_inj same.1
  rw [respond_of_beats beats, respond_of_beats beats', Except.ok.injEq]
  by_cases bare : raw.text "operation" = "heartbeat" <;>
    by_cases bare' : other.text "operation" = "heartbeat"
  · rw [if_pos bare, if_pos bare']
    exact ⟨fun same => ⟨⟨fun _ => bare', fun _ => bare⟩, fun _ => sameJob same⟩,
      fun spelled => by rw [spelled.2 bare]⟩
  · rw [if_pos bare, if_neg bare']
    exact ⟨fun same => absurd same (apart beats), fun spelled => absurd (spelled.1.mp bare) bare'⟩
  · rw [if_neg bare, if_pos bare']
    exact ⟨fun same => absurd same.symm (apart beats'),
      fun spelled => absurd (spelled.1.mpr bare') bare⟩
  · rw [if_neg bare, if_neg bare']
    simp [bare, bare']

/-- A heartbeat that reaches no such job is answered without regard to blanks. -/
theorem respond_trimmed_of_idle (operation : trimSpace (raw.text "operation") = "heartbeat")
    (idle : ∀ input job, ¬ raw.Beats lists userID db input job) :
    respond lists check now userID renew raw.trimmed db =
      respond lists check now userID renew raw db := by
  have dispatched : trimSpace (raw.trimmed.text "operation") = "heartbeat" := by
    rw [Arguments.operation_trimmed, trimSpace_trimSpace, operation]
  have bare : raw.trimmed.text "operation" = "heartbeat" := by
    rw [Arguments.operation_trimmed, operation]
  rw [respond, respond, handleCodebaseIndex_job (.inr operation),
    handleCodebaseIndex_job (.inr dispatched), job_trimmed]
  simp only [if_pos bare]
  cases decoded : (strictDecoder lists).job raw with
  | error message => rfl
  | ok input =>
    simp only [Except.map, ok_bind, MCPIndexJobArgs.trim, checkJobID_trimSpace]
    cases valid : checkJobID input.jobID with
    | error message => rfl
    | ok checked =>
      simp only [ok_bind, pure, Except.pure]
      -- both ways of answering come down to the first look at the job
      cases found : db.getIndexJobByText userID input.jobID with
      | error message =>
        by_cases sent : raw.text "operation" = "heartbeat"
        · simp only [if_pos sent, IndexCall.answer, heartbeatByText, getIndexJobByText_trimSpace, found]
        · simp only [if_neg sent, IndexCall.answer, heartbeatByText, getIndexJobByText_trimSpace, found]
      | ok job =>
        have rests : ¬ (job.status = .running ∧ job.phase ≠ .publishing) := fun running =>
          idle input job ⟨operation, decoded, valid, found, running⟩
        by_cases sent : raw.text "operation" = "heartbeat"
        · simp only [if_pos sent, IndexCall.answer, heartbeatByText, getIndexJobByText_trimSpace,
            found, if_neg rests]
        · simp only [if_neg sent, IndexCall.answer, heartbeatByText, getIndexJobByText_trimSpace,
            found, if_neg rests]

end

end

/-- Calls that differ in white space only are answered alike, with the same effects, exactly if
they are no heartbeats that reach a running job which is not publishing, or both are spelled
alike: without blanks around the operation and with the same job identifier, or both with
blanks around the operation. And a heartbeat that reaches such a job renews it exactly if it is
spelled without blanks. -/
theorem index_calls_ignore_spaces (lists : ListDecoder) (check : String → Except String Unit)
    (now : Nat) (userID : String) (renew : String → String → Except String Unit)
    (raw other : Arguments) (same : raw.SameButSpaces other) (db : Database) :
    (respond lists check now userID renew raw db = respond lists check now userID renew other db ↔
      ∀ input input' job, raw.Beats lists userID db input job →
        other.Beats lists userID db input' job →
        (raw.text "operation" = "heartbeat" ↔ other.text "operation" = "heartbeat") ∧
          (raw.text "operation" = "heartbeat" → input.jobID = input'.jobID)) ∧
    ∀ input job, raw.Beats lists userID db input job → job.heartbeatAt ≠ now →
      ((∃ answer after renewals,
          respond lists check now userID renew raw db = .ok (.answered answer after renewals) ∧
          { job with heartbeatAt := now } ∈ after.indexJobs) ↔
        raw.text "operation" = "heartbeat" ∧ trimSpace input.jobID = input.jobID) := by
  have trimmed : raw.trimmed = other.trimmed := Arguments.eq_of_rows same
  have back : other.SameButSpaces raw := Eq.symm same
  refine ⟨⟨fun equal input input' job beats beats' => ?_, fun spelled => ?_⟩, ?_⟩
  · exact (respond_eq_iff_of_beats beats beats').mp equal
  · by_cases heartbeat : trimSpace (raw.text "operation") = "heartbeat"
    · by_cases reaches : ∃ input job, raw.Beats lists userID db input job
      · obtain ⟨input, job, beats⟩ := reaches
        obtain ⟨input', beats'⟩ := beats.of_same same
        exact (respond_eq_iff_of_beats beats beats').mpr (spelled input input' job beats beats')
      · have idle : ∀ input job, ¬ raw.Beats lists userID db input job :=
          fun input job beats => reaches ⟨input, job, beats⟩
        have idle' : ∀ input job, ¬ other.Beats lists userID db input job := by
          intro input job beats
          obtain ⟨input', beats'⟩ := beats.of_same back
          exact idle input' job beats'
        rw [← respond_trimmed_of_idle heartbeat idle, trimmed,
          respond_trimmed_of_idle (operation_of_same same ▸ heartbeat) idle']
    · rw [← respond_trimmed heartbeat, trimmed,
        respond_trimmed (operation_of_same same ▸ heartbeat)]
  · intro input job beats stale
    rw [respond_of_beats beats]
    -- where the row is not written, it is the one that was found
    have unwritten : { job with heartbeatAt := now } ∉ db.indexJobs := by
      intro listed
      have rows := Table.eq_of_key_eq listed beats.listed.1 rfl
      exact stale (congrArg IndexJob.heartbeatAt rows).symm
    constructor
    · rintro ⟨answer, after, renewals, responded, beaten⟩
      rw [Except.ok.injEq] at responded
      by_cases bare : raw.text "operation" = "heartbeat"
      · refine ⟨bare, ?_⟩
        by_contra blank
        rw [if_pos bare, heartbeatByText_blank beats blank] at responded
        cases responded
        exact unwritten beaten
      · rw [if_neg bare] at responded
        cases responded
        exact absurd beaten unwritten
    · rintro ⟨bare, tight⟩
      obtain ⟨⟨answer, answered⟩, beaten⟩ := heartbeatByText_tight now renew beats tight
      exact ⟨answer, _, _, by rw [if_pos bare, answered], beaten⟩

/-! ### A blank before a heartbeat -/

def theJob : String := "f47ac10b-58cc-4372-a567-0e02b2c3d479"

def aRunningJob : IndexJob :=
  Database.newIndexJob 0 "us" theJob ⟨1, "root", "root", "", "", [], [], "root"⟩ .full 0 ⟨[], [], 0⟩

def runningDatabase : Database :=
  { Database.empty with indexJobs := ⟨[aRunningJob], List.nodup_singleton _⟩ }

def jobArguments (operation jobID : String) : Arguments :=
  ⟨[("operation", .text operation), ("job_id", .text jobID)], by
    have apart : ["operation", "job_id"].Nodup := by decide
    exact apart⟩

/-- No field of a job's arguments is a list. -/
def noLists : ListDecoder where
  quote := id
  mismatch _ _ _ := none
  manifestFiles _ := []
  uploadFiles _ := []
  unreadableFiles _ := []

/-- The answer at 50, from an LCE that renews. -/
def answerAt50 (raw : Arguments) : Except String IndexAnswer :=
  respond noLists (fun _ => .ok ()) 50 "us" (fun _ _ => .ok ()) raw runningDatabase

def IndexAnswer.heartbeatAt : IndexAnswer → Option Nat
  | .begun _ => none
  | .answered _ db _ => (db.indexJobs.lookup theJob).map (·.heartbeatAt)

theorem index_calls_ignore_spaces_job :
    answerAt50 (jobArguments "status\n" (" " ++ theJob)) = answerAt50 (jobArguments "status" theJob) ∧
      ∃ answer after renewals,
        answerAt50 (jobArguments "heartbeat" theJob) = .ok (.answered answer after renewals) ∧
        { aRunningJob with heartbeatAt := 50 } ∈ after.indexJobs := by
  constructor
  · refine (index_calls_ignore_spaces noLists _ 50 "us" _ _ _ (by decide +kernel) _).1.mpr ?_
    intro input input' job beats
    exact absurd beats.operation (by decide +kernel)
  · have beats : (jobArguments "heartbeat" theJob).Beats noLists "us" runningDatabase
        ⟨"heartbeat", theJob⟩ aRunningJob :=
      ⟨by decide +kernel, by decide +kernel, by decide +kernel, by decide +kernel, by decide +kernel⟩
    exact ((index_calls_ignore_spaces noLists _ 50 "us" _ (jobArguments "heartbeat" theJob)
      (jobArguments "heartbeat" theJob) (by decide +kernel) _).2 _ _ beats (by decide +kernel)).mpr
      (by decide +kernel)

/-- With a blank before it, a heartbeat of a running job does not renew it; neither does one
with a blank before the job identifier. -/
theorem heartbeats_with_blanks_lost :
    (jobArguments " heartbeat" theJob).SameButSpaces (jobArguments "heartbeat" theJob) ∧
      (jobArguments "heartbeat" (" " ++ theJob)).SameButSpaces (jobArguments "heartbeat" theJob) ∧
      (answerAt50 (jobArguments "heartbeat" theJob)).toOption.map (·.heartbeatAt) = some (some 50) ∧
      (answerAt50 (jobArguments " heartbeat" theJob)).toOption.map (·.heartbeatAt) = some (some 0) ∧
      (answerAt50 (jobArguments "heartbeat" (" " ++ theJob))).toOption.map (·.heartbeatAt) =
        some (some 0) := by
  decide +kernel

end AcemcpRelay
