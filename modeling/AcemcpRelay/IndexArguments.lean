import AcemcpRelay.Jobs.Status
import AcemcpRelay.ToolCalls
import AcemcpRelay.Wire.Fields

/-!
# Arguments of `codebase_index`

`decodeStrictIndexArgs` writes the arguments as JSON, with their keys in order, and reads that
into a struct: a key without a field is an error, as is a value of another type, and the first
error is the one that is reported. With it, what `handleCodebaseIndex` answers to a status and
to a heartbeat. PostgreSQL reads the text of a job identifier with its `uuid` type.
-/
namespace AcemcpRelay

open Store Wire

/-- The arguments as they are written. -/
def Arguments.sorted (raw : Arguments) : List (String × ArgumentValue) :=
  raw.rows.insertionSort inKeyOrder

/-- The struct that the arguments are read into: its text fields, and its other ones. -/
structure StructType where
  name : String
  texts : List String
  lists : List String

def StructType.fields (type : StructType) : List String := type.texts ++ type.lists

/-- How `encoding/json` reads what is no text. -/
structure ListDecoder where
  /-- `%q`. -/
  quote : String → String
  /-- The error of reading a value into the field of a struct. -/
  mismatch : String → String → ArgumentValue → Option String
  /-- What a field holds after these values have been read into it, one after the other. -/
  manifestFiles : List ArgumentValue → List MCPIndexManifestFile
  uploadFiles : List ArgumentValue → List MCPIndexUploadFile
  unreadableFiles : List ArgumentValue → List String

/-- What a value is called if a text was expected. -/
def kindName (encoded : List Char) : String :=
  match encoded with
  | '[' :: _ => "array"
  | '\x7b' :: _ => "object"
  | 't' :: _ => "bool"
  | 'f' :: _ => "bool"
  | _ => "number"

def textMismatch (type field : String) : ArgumentValue → Option String
  | .other encoded => some ("json: cannot unmarshal " ++ kindName encoded ++
      " into Go struct field " ++ type ++ "." ++ field ++ " of type string")
  | _ => none

/-- The error of reading one member. -/
def StructType.memberError (lists : ListDecoder) (type : StructType)
    (member : String × ArgumentValue) : Option String :=
  match fieldFor type.fields member.1 with
  | none => some ("json: unknown field " ++ lists.quote member.1)
  | some field =>
    if field ∈ type.texts then textMismatch type.name field member.2
    else lists.mismatch type.name field member.2

/-- What a text field holds at the end; null leaves it as it is. -/
def StructType.text (type : StructType) (field : String)
    (members : List (String × ArgumentValue)) : String :=
  match (assigned type.fields field (members.filter (·.2 != .null))).getLast? with
  | some (.text value) => value
  | _ => ""

/-- `decodeStrictIndexArgs`. -/
def decodeStrictIndexArgs {Input : Type} (lists : ListDecoder) (type : StructType)
    (read : List (String × ArgumentValue) → Input) (raw : Arguments) : Except String Input :=
  match raw.sorted.findSome? (type.memberError lists) with
  | some message => .error ("invalid codebase_index arguments: " ++ message)
  | none => .ok (read raw.sorted)

/-! ### The structs -/

def mcpIndexStartArgs : StructType where
  name := "mcpIndexStartArgs"
  texts := ["operation", "root_id", "workspace_name", "branch", "revision", "client_version"]
  lists := ["files", "unreadable_files"]

def mcpIndexUploadArgs : StructType where
  name := "mcpIndexUploadArgs"
  texts := ["operation", "job_id", "root_id"]
  lists := ["files"]

def mcpIndexJobArgs : StructType where
  name := "mcpIndexJobArgs"
  texts := ["operation", "job_id"]
  lists := []

def mcpIndexFailArgs : StructType where
  name := "mcpIndexFailArgs"
  texts := ["operation", "job_id", "error", "error_code", "error_origin", "recovery"]
  lists := []

def readStart (lists : ListDecoder) (members : List (String × ArgumentValue)) :
    MCPIndexStartArgs :=
  let text := fun field => mcpIndexStartArgs.text field members
  { rootID := text "root_id", workspaceName := text "workspace_name", branch := text "branch"
    revision := text "revision", clientVersion := text "client_version"
    files := lists.manifestFiles (assigned mcpIndexStartArgs.fields "files" members)
    unreadableFiles :=
      lists.unreadableFiles (assigned mcpIndexStartArgs.fields "unreadable_files" members) }

def readUpload (lists : ListDecoder) (members : List (String × ArgumentValue)) :
    MCPIndexUploadArgs :=
  let text := fun field => mcpIndexUploadArgs.text field members
  { jobID := text "job_id", rootID := text "root_id"
    files := lists.uploadFiles (assigned mcpIndexUploadArgs.fields "files" members) }

def readJob (members : List (String × ArgumentValue)) : MCPIndexJobArgs :=
  let text := fun field => mcpIndexJobArgs.text field members
  { operation := text "operation", jobID := text "job_id" }

def readFail (members : List (String × ArgumentValue)) : MCPIndexFailArgs :=
  let text := fun field => mcpIndexFailArgs.text field members
  { jobID := text "job_id"
    report := { error := text "error", errorCode := text "error_code"
                errorOrigin := text "error_origin", recovery := text "recovery" } }

def strictDecoder (lists : ListDecoder) : IndexDecoder where
  start := decodeStrictIndexArgs lists mcpIndexStartArgs (readStart lists)
  upload := decodeStrictIndexArgs lists mcpIndexUploadArgs (readUpload lists)
  job := decodeStrictIndexArgs lists mcpIndexJobArgs readJob
  fail := decodeStrictIndexArgs lists mcpIndexFailArgs readFail

/-! ### Answers -/

def invalidUUID (text : String) : String :=
  "pq: invalid input syntax for type uuid: \"" ++ text ++ "\""

/-- `getIndexJob`, from the text of the job's identifier. -/
def Database.getIndexJobByText (userID jobID : String) (db : Database) : Except String IndexJob :=
  let jobID := trimSpace jobID
  if jobID = "" then .error "index job id is required"
  else
    match postgresUUID jobID with
    | none => .error (invalidUUID jobID)
    | some id => db.getIndexJob userID id

/-- What comes of a call: the operation that starts, or the answer, the database and the
`renew` requests to LCE, with their job and root. -/
inductive IndexAnswer where
  | begun (operation : Operation)
  | answered (answer : Except String IndexJob) (db : Database) (renewals : List (String × String))

/-- The `heartbeat` operation, from the text of the job's identifier; `renew` is what LCE
answers. Only the first look at the job trims the text. -/
def heartbeatByText (now : Nat) (userID jobID : String)
    (renew : String → String → Except String Unit) (db : Database) : IndexAnswer :=
  match db.getIndexJobByText userID jobID with
  | .error message => .answered (.error message) db []
  | .ok job =>
    if job.status = .running ∧ job.phase ≠ .publishing then
      -- the row was found by the trimmed text; the `UPDATE` gets the text as it came
      match postgresUUID jobID with
      | none => .answered (.error (invalidUUID jobID)) db []
      | some id =>
        let beating := db.heartbeat now userID id
        -- the statement has committed, whatever LCE answers to the renewal
        match renew jobID job.rootID with
        | .error message => .answered (.error message) beating [(jobID, job.rootID)]
        | .ok () =>
          match beating.loadIndexJob userID id with
          | none => .answered (.error "sql: no rows in result set") beating [(jobID, job.rootID)]
          | some reloaded => .answered (.ok reloaded) beating [(jobID, job.rootID)]
    else .answered (.ok job) db []

def IndexCall.answer (now : Nat) (userID : String) (renew : String → String → Except String Unit)
    (db : Database) : IndexCall → IndexAnswer
  | .operation op => .begun op
  | .status jobID => .answered (db.getIndexJobByText userID jobID) db []
  | .heartbeat jobID => heartbeatByText now userID jobID renew db

end AcemcpRelay
