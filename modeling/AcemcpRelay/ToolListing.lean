import AcemcpRelay.ToolCalls
import AcemcpRelay.Wire.Decoded
import AcemcpRelay.Wire.Fields

/-!
# The list of tools

`filterChatMCPTools`, which makes the list of tools that clients see from the list of LCE, and
`rewriteToolSchema`. The first reads the name of a tool through a struct, the second through
a map: a struct takes keys that differ in case, and passes over null; a map takes the key as it
stands, with the last of its values. A JSON document is a tree, `finite` says which numbers a
`float64` can hold.
-/
namespace AcemcpRelay

open Store Wire

/-- `policy.optional`. -/
def optionalChatMCPTool (tool : String) : Bool := tool == swiftSyncToolName

/-- `policy.description`. -/
def chatMCPToolDescription (tool : String) : String :=
  if tool = "codebase-retrieval" then
    "Search the authenticated user's server-side LCE index. Use information_request for " ++
      "the semantic goal and technical_terms for exact identifier hints. Pass the optional " ++
      "root_id to scope retrieval to one indexed root; omit it to search the tenant " ++
      "default scope. Returns a tenant context pack; local worktree, Git, connectors, " ++
      "workflows, and context_bundle are not available through this remote service."
  else if tool = "codebase_symbol_graph" then
    "Query the authenticated user's server-side symbol graph for definitions, " ++
      "references, callers, callees, importers, related tests, and bounded impact. root_id " ++
      "is required because indexing protocol v1 never writes to the shared default root; " ++
      "the service supplies the tenant identity."
  else if tool = "codebase_deep_graph" then
    "Query the authenticated tenant's Neo4j-derived root graph for bounded multi-hop " ++
      "impact, paths, cycles, SCC, and centrality. Results include projection freshness " ++
      "and explicit budget/truncation diagnostics. Global cross-repository analysis " ++
      "remains unavailable until the asynchronous global graph manifest exists. The " ++
      "service supplies tenant identity; root_id is required to select one indexed branch " ++
      "view."
  else if tool = "codebase_graph_algorithm" then
    "Submit or inspect a durable asynchronous SCC or centrality job for the " ++
      "authenticated tenant's ready Neo4j root generation. Use operation=submit with " ++
      "root_id and algorithm, or operation=status with job_id. The tool reports executor " ++
      "availability and never runs a full-graph algorithm synchronously in the request. " ++
      "The service supplies tenant identity."
  else if tool = swiftSyncToolName then
    "Automatic build-host Swift compiler synchronization. Source manifest and plan " ++
      "preparation, bounded snapshot upload, and asynchronous publication. The service " ++
      "supplies authenticated tenant identity."
  else if tool = "codebase_enhance_prompt" then
    "Use when the user explicitly asks to enhance or refine a coding prompt, or asks for " ++
      "a code-grounded implementation brief before coding. Pass the complete original " ++
      "request in prompt and known symbols, file names, or error codes in technical_terms. " ++
      "The result contains goals, requirements, constraints, verified code references, " ++
      "verification steps, and open questions. Treat it as supplemental: the original " ++
      "request remains authoritative. Do not call automatically for every ordinary coding " ++
      "task. The service supplies tenant identity; root_id may scope the request to one " ++
      "indexed branch view."
  else ""

section

variable {Number : Type}

/-- What `encoding/json` calls a value of this kind. -/
def kindOfValue : Value Number → String
  | .null => "null"
  | .bool _ => "bool"
  | .number _ => "number"
  | .string _ => "string"
  | .array _ => "array"
  | .object _ => "object"

def cannotUnmarshal (value : Value Number) (into : String) : String :=
  "json: cannot unmarshal " ++ kindOfValue value ++ " into Go " ++ into

/-- `value.(string)`. -/
def textOf : Value Number → Option String
  | .string text => some text
  | _ => none

/-- A value for the field `name` is no text. -/
def notAText : Value Number → Bool
  | .string _ | .null => false
  | _ => true

/-- `metadata.Name`: null leaves the field as it is. -/
def metadataName (tool : Value Number) : Except String String :=
  match tool with
  | .null => .ok ""
  | .object members =>
    let values := assigned ["name"] "name" members
    match values.find? notAText with
    -- a value of the wrong type is an error even if a later member would replace it
    | some value => .error (cannotUnmarshal value "struct field .name of type string")
    | none => .ok ((values.filterMap textOf).getLast?.getD "")
  | value => .error (cannotUnmarshal value
      "value of type struct \x7b Name string \"json:\\\"name\\\"\" \x7d")

def quoted (name : String) : String := "\"" ++ name ++ "\""

/-- The part of `rewriteToolSchema` that rewrites the schema of an allowed tool. -/
def rewriteInputSchema (policy : ChatMCPToolPolicy) (schemaRaw : Option (Value Number)) :
    Except String (Value Number) :=
  match schemaRaw with
  | none => .error ("allowed tool " ++ quoted policy.tool ++ " has no inputSchema")
  | some schemaRaw =>
    match schemaRaw.asMap with
    | none => .error ("allowed tool " ++ quoted policy.tool ++ " has a non-object inputSchema")
    | some schema =>
      match (schema.get "properties").bind Value.asMap with
      | none =>
        .error ("allowed tool " ++ quoted policy.tool ++ " has no object properties schema")
      | some props =>
        -- what the policy does not name is dropped, so it is closed to new arguments of LCE
        let props := props.delete fun property => !policy.arguments.contains property.1
        let required := sortStrings policy.required
        match required.find? fun field => (props.lookup field).isNone with
        | some field => .error ("allowed tool " ++ quoted policy.tool ++
            " is missing required property " ++ quoted field)
        | none =>
          let schema := schema.put ("properties", .object props.rows)
          let schema := schema.put ("required", .array (required.map .string))
          let schema := schema.put ("additionalProperties", .bool false)
          .ok (.object (schema.delete (·.1 == "oneOf")).rows)

variable (finite : Number → Bool)

/-- `rewriteToolSchema`; what does not decode and what is not allowed stays as it is. -/
def rewriteToolSchema (tool : Value Number) : Except String (Value Number) :=
  match tool with
  | .object members =>
    match Value.decodedMap finite members with
    | none => .ok tool
    | some map =>
      -- the name under the key `name`; the filter took the tool by a name it read otherwise
      let name := trimSpace (((map.get "name").bind textOf).getD "")
      match chatMCPToolPolicy name with
      | none => .ok tool
      | some policy => do
        let map := map.put ("name", .string name)
        let map := map.put ("description", .string (chatMCPToolDescription name))
        let schema ← rewriteInputSchema policy (GoMap.get map "inputSchema")
        return .object (map.put ("inputSchema", schema)).rows
  | _ => .ok tool

/-- The loop of `filterChatMCPTools`: the names seen, and the tools. -/
def filterTools : List (Value Number) → List String → List (Value Number) →
    Except String (List String × List (Value Number))
  | [], seen, filtered => .ok (seen, filtered)
  | tool :: rest, seen, filtered =>
    match metadataName tool with
    | .error message => .error ("parse MCP tool metadata: " ++ message)
    | .ok name =>
      let name := trimSpace name
      -- a tool that is not public is skipped, whatever else is wrong with it
      if chatMCPToolPolicy name = none then filterTools rest seen filtered
      else if name ∈ seen then .error ("duplicate allowed MCP tool " ++ quoted name)
      else
        match rewriteToolSchema finite tool with
        | .error message =>
          .error ("rewrite MCP tool schema " ++ quoted name ++ ": " ++ message)
        | .ok rewritten => filterTools rest (seen ++ [name]) (filtered ++ [rewritten])

/-- `json.Unmarshal(raw, &tools)`. -/
def parseTools : Value Number → Except String (List (Value Number))
  | .null => .ok []
  | .array tools => .ok tools
  | value => .error ("parse MCP tools: " ++ cannotUnmarshal value "value of type []json.RawMessage")

def filterChatMCPTools (raw : Value Number) : Except String (List (Value Number)) := do
  let tools ← parseTools raw
  let (seen, filtered) ← filterTools finite tools [] []
  let missing := (chatMCPToolPolicies.map (·.tool)).filter fun name =>
    !seen.contains name && !optionalChatMCPTool name
  refuse (missing ≠ []) ("upstream LCE is missing required public MCP tools: " ++
    ", ".intercalate (sortStrings missing))
  return filtered

end

end AcemcpRelay
