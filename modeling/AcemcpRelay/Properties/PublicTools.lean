import AcemcpRelay.ToolListing

/-!
# What clients see of the tools

Each tool that `filterChatMCPTools` lists has the name of a policy and a schema that the policy
allows, exactly if each tool that it lets pass presents such a name: in the map it decodes
into, or, if it does not decode, as it stands. The names that let the tools pass are distinct
and complete; the names that they present have to be so as well. All this holds if each tool
object has one name, spelled `name`, and decodes.

Otherwise the two readings of the name can part: a tool that spells the key `Name` is let pass
and is not rewritten.
-/
namespace AcemcpRelay

open Store Wire

variable {Number : Type}

/-! ### Conforming tools -/

/-- The schema admits arguments of the policy only and asks for those it requires. -/
def ConformingSchema (policy : ChatMCPToolPolicy) (value : Value Number) : Prop :=
  ∃ schema props : GoMap (Value Number), value = .object schema.rows ∧
    schema.get "properties" = some (.object props.rows) ∧
    (∀ property ∈ props, property.1 ∈ policy.arguments) ∧
    schema.get "required" = some (.array ((sortStrings policy.required).map .string)) ∧
    schema.get "additionalProperties" = some (.bool false)

def ConformingTool (policy : ChatMCPToolPolicy) (tool : Value Number) : Prop :=
  ∃ map : GoMap (Value Number), tool = .object map.rows ∧
    map.get "name" = some (.string policy.tool) ∧
    ∃ schema, map.get "inputSchema" = some schema ∧ ConformingSchema policy schema

variable {policy : ChatMCPToolPolicy} {finite : Number → Bool} {tool : Value Number}

theorem rewriteInputSchema_conforms {raw : Option (Value Number)} {schema : Value Number}
    (rewritten : rewriteInputSchema policy raw = .ok schema) : ConformingSchema policy schema := by
  unfold rewriteInputSchema at rewritten
  split at rewritten
  · simp at rewritten
  · split at rewritten
    · simp at rewritten
    next before _ =>
      split at rewritten
      · simp at rewritten
      next props _ =>
        dsimp only at rewritten
        split at rewritten
        · simp at rewritten
        · refine ⟨_, props.delete fun property => !policy.arguments.contains property.1,
            (Except.ok.inj rewritten).symm, ?_, ?_, ?_, ?_⟩
          · rw [GoMap.get_delete (by simp), GoMap.get_put_of_ne (by decide),
              GoMap.get_put_of_ne (by decide), GoMap.get_put_self]
          · intro property kept
            simpa using (Table.mem_delete.mp kept).2
          · rw [GoMap.get_delete (by simp), GoMap.get_put_of_ne (by decide), GoMap.get_put_self]
          · rw [GoMap.get_delete (by simp), GoMap.get_put_self]

theorem chatMCPToolPolicy_eq_some {name : String} (found : chatMCPToolPolicy name = some policy) :
    policy ∈ chatMCPToolPolicies ∧ policy.tool = name := by
  have named := List.find?_some found
  rw [beq_iff_eq] at named
  exact ⟨List.mem_of_find?_eq_some found, named⟩

theorem rewriteToolSchema_conforms {members : List (String × Value Number)}
    {map : GoMap (Value Number)} {after : Value Number}
    (decoded : Value.decodedMap finite members = some map)
    (allowed : chatMCPToolPolicy (trimSpace (((map.get "name").bind textOf).getD "")) = some policy)
    (rewritten : rewriteToolSchema finite (.object members) = .ok after) :
    ConformingTool policy after := by
  have named := (chatMCPToolPolicy_eq_some allowed).2
  simp only [rewriteToolSchema, decoded, allowed, bind_ok_iff, pure_ok_iff] at rewritten
  obtain ⟨schema, conforms, rfl⟩ := rewritten
  refine ⟨_, rfl, ?_, schema, GoMap.get_put_self, rewriteInputSchema_conforms conforms⟩
  rw [GoMap.get_put_of_ne (by decide), GoMap.get_put_of_ne (by decide), GoMap.get_put_self, named]

/-! ### What a tool presents -/

/-- The name that `rewriteToolSchema` finds in the map that a tool decodes into. -/
def mapName (finite : Number → Bool) : Value Number → Option String
  | .object members => (Value.decodedMap finite members).map fun map =>
      trimSpace (((map.get "name").bind textOf).getD "")
  | _ => none

/-- The map that the tool decodes into has the name of the policy, or the tool does not decode
and conforms as it stands. -/
def Presents (finite : Number → Bool) (tool : Value Number) (policy : ChatMCPToolPolicy) : Prop :=
  policy ∈ chatMCPToolPolicies ∧ match mapName finite tool with
    | some name => name = policy.tool
    | none => ConformingTool policy tool

/-- The name that a client reads. -/
def nameOf : Value Number → Option String
  | .object members => (Value.member "name" members).bind textOf
  | _ => none

theorem nameOf_conforming (conforms : ConformingTool policy tool) :
    nameOf tool = some policy.tool := by
  obtain ⟨map, rfl, named, -⟩ := conforms
  have member : Value.member "name" map.rows = some (.string policy.tool) :=
    (Value.member_eq_some map.unique).mpr (GoMap.get_eq_some.mp named)
  rw [nameOf, member]
  rfl

theorem chatMCPToolPolicy_tool (known : policy ∈ chatMCPToolPolicies) :
    chatMCPToolPolicy policy.tool = some policy ∧ trimSpace policy.tool = policy.tool := by
  revert policy
  decide +kernel

/-- A conforming tool that decodes keeps its name. -/
theorem mapName_conforming {name : String} (known : policy ∈ chatMCPToolPolicies)
    (conforms : ConformingTool policy tool) (decodes : mapName finite tool = some name) :
    name = policy.tool := by
  obtain ⟨map, rfl, named, -⟩ := conforms
  obtain ⟨decoded, into, rfl⟩ := Option.map_eq_some_iff.mp decodes
  obtain ⟨members, read, rfl⟩ := Option.map_eq_some_iff.mp into
  have listed : ("name", Value.string policy.tool) ∈ map.rows := GoMap.get_eq_some.mp named
  have found : (GoMap.ofMembers members).get "name" = some (.string policy.tool) := by
    apply GoMap.get_ofMembers
    · exact (Value.mem_decodedMembers read).mpr ⟨_, listed, rfl, by rw [Value.decoded]⟩
    · intro other after
      obtain ⟨⟨key, value⟩, earlier, same, decoded⟩ := (Value.mem_decodedMembers read).mp after
      simp only at same decoded
      subst same
      have equal := (GoMap.get_eq_some.mpr earlier).symm.trans named
      rw [Option.some.inj equal, Value.decoded, Option.some.injEq] at decoded
      exact decoded.symm
  rw [found, Option.bind_some, textOf, Option.getD_some, (chatMCPToolPolicy_tool known).2]

/-- What a tool is rewritten to conforms to the policy that it presents, and to no other. -/
theorem conforms_iff_presents {after : Value Number}
    (rewritten : rewriteToolSchema finite tool = .ok after) :
    policy ∈ chatMCPToolPolicies ∧ ConformingTool policy after ↔ Presents finite tool policy := by
  unfold Presents
  refine and_congr_right fun known => ?_
  cases decodes : mapName finite tool with
  | none =>
    have same : after = tool := by
      unfold rewriteToolSchema at rewritten
      split at rewritten
      next members =>
        rw [Option.map_eq_none_iff.mp decodes] at rewritten
        exact (Except.ok.inj rewritten).symm
      · exact (Except.ok.inj rewritten).symm
    rw [same]
  | some name =>
    cases tool with
    | object members =>
      obtain ⟨map, decoded, rfl⟩ := Option.map_eq_some_iff.mp decodes
      dsimp only
      cases found : chatMCPToolPolicy (trimSpace (((map.get "name").bind textOf).getD "")) with
      | none =>
        -- the tool stays as it is, and its name is that of no policy
        have same : after = .object members := by
          simp only [rewriteToolSchema, decoded, found, Except.ok.injEq] at rewritten
          exact rewritten.symm
        rw [same]
        constructor
        · intro conforms
          exact mapName_conforming known conforms decodes
        · intro named
          rw [named, (chatMCPToolPolicy_tool known).1] at found
          cases found
      | some present =>
        have conforms := rewriteToolSchema_conforms decoded found rewritten
        obtain ⟨-, named⟩ := chatMCPToolPolicy_eq_some found
        rw [← named]
        constructor
        · intro other
          have names := (nameOf_conforming conforms).symm.trans (nameOf_conforming other)
          exact Option.some.inj names
        · intro same
          rw [← named, same, (chatMCPToolPolicy_tool known).1, Option.some.injEq] at found
          rw [found]
          exact conforms
    | null | bool | number | string | array => cases decodes

/-! ### The loop -/

/-- The tool is taken: the name that the struct reads is that of a policy. -/
def passes (tool : Value Number) : Bool :=
  match metadataName tool with
  | .ok name => (chatMCPToolPolicy (trimSpace name)).isSome
  | .error _ => false

/-- The tools of LCE's list that are taken. -/
def passedTools : Value Number → List (Value Number)
  | .array tools => tools.filter passes
  | _ => []

/-- The name under which a tool is taken. -/
def PassesAs (tool : Value Number) (name : String) : Prop :=
  ∃ read, metadataName tool = .ok read ∧ trimSpace read = name

/-- The tools that are taken are rewritten one by one, and no name is taken twice. -/
theorem filterTools_ok {tools filtered filtered' : List (Value Number)} {seen seen' : List String}
    (distinct : seen.Nodup)
    (run : filterTools finite tools seen filtered = .ok (seen', filtered')) :
    ∃ names rewritten, seen' = seen ++ names ∧ filtered' = filtered ++ rewritten ∧ seen'.Nodup ∧
      List.Forall₂ PassesAs (tools.filter passes) names ∧
      List.Forall₂ (fun tool after => rewriteToolSchema finite tool = .ok after)
        (tools.filter passes) rewritten := by
  induction tools generalizing seen filtered with
  | nil =>
    cases run
    exact ⟨[], [], by simp, by simp, distinct, .nil, .nil⟩
  | cons tool rest ih =>
    unfold filterTools at run
    split at run
    · simp at run
    next name read =>
      dsimp only at run
      split at run
      next unknown =>
        have skipped : passes tool = false := by
          rw [passes, read]
          exact Option.isSome_eq_false_iff.mpr (Option.isNone_iff_eq_none.mpr unknown)
        rw [List.filter_cons_of_neg (by simp [skipped])]
        exact ih distinct run
      next allowed =>
        have taken : passes tool = true := by
          rw [passes, read]
          exact Option.isSome_iff_ne_none.mpr allowed
        split at run
        · simp at run
        next fresh =>
          split at run
          · simp at run
          next after rewritten =>
            have longer : (seen ++ [trimSpace name]).Nodup := by
              rw [← List.concat_eq_append]
              exact (List.nodup_concat _ _).mpr ⟨fresh, distinct⟩
            obtain ⟨names, others, sameSeen, sameTools, nodup, read', rewritten'⟩ := ih longer run
            rw [List.filter_cons_of_pos taken]
            refine ⟨trimSpace name :: names, after :: others, ?_, ?_, nodup,
              .cons ⟨name, read, rfl⟩ read', .cons rewritten rewritten'⟩
            · rw [sameSeen, List.append_assoc, List.singleton_append]
            · rw [sameTools, List.append_assoc, List.singleton_append]

theorem filterChatMCPTools_ok {raw : Value Number} {emitted : List (Value Number)}
    (run : filterChatMCPTools finite raw = .ok emitted) :
    ∃ names : List String, names.Nodup ∧ List.Forall₂ PassesAs (passedTools raw) names ∧
      (∀ policy ∈ chatMCPToolPolicies, optionalChatMCPTool policy.tool = false →
        policy.tool ∈ names) ∧
      List.Forall₂ (fun tool after => rewriteToolSchema finite tool = .ok after)
        (passedTools raw) emitted := by
  simp only [filterChatMCPTools, bind_ok_iff, pure_ok_iff, refuse_ok_iff] at run
  obtain ⟨tools, parsed, ⟨seen, filtered⟩, looped, _, complete, rfl⟩ := run
  have taken : tools.filter passes = passedTools raw := by
    cases raw with
    | null | array =>
      cases parsed
      rfl
    | bool | number | string | object => simp [parseTools] at parsed
  obtain ⟨names, rewritten, rfl, rfl, nodup, read, each⟩ := filterTools_ok List.nodup_nil looped
  rw [taken] at read each
  refine ⟨seen, nodup, read, ?_, each⟩
  intro policy known needed
  by_contra unseen
  refine complete (List.ne_nil_of_mem (a := policy.tool) (List.mem_filter.mpr ⟨?_, ?_⟩))
  · exact List.mem_map_of_mem known
  · simp [unseen, needed]

/-- A relation can be read off one by one. -/
theorem exists_forall₂_iff {α β : Type} {R : α → β → Prop} {items : List α} :
    (∃ others, List.Forall₂ R items others) ↔ ∀ item ∈ items, ∃ other, R item other := by
  induction items with
  | nil => simp
  | cons item items ih =>
    rw [List.forall_mem_cons, ← ih]
    constructor
    · rintro ⟨others, each⟩
      cases each with
      | cons here later => exact ⟨⟨_, here⟩, _, later⟩
    · rintro ⟨⟨other, here⟩, others, later⟩
      exact ⟨other :: others, .cons here later⟩

/-- The tools conform to policies one by one exactly if they present them. -/
theorem forall₂_conforms {taken emitted : List (Value Number)} {policies : List ChatMCPToolPolicy}
    (each : List.Forall₂ (fun tool after => rewriteToolSchema finite tool = .ok after) taken emitted) :
    List.Forall₂ (fun tool policy => policy ∈ chatMCPToolPolicies ∧ ConformingTool policy tool)
      emitted policies ↔ List.Forall₂ (Presents finite) taken policies := by
  induction each generalizing policies with
  | nil => cases policies <;> simp
  | cons rewritten _ ih =>
    cases policies with
    | nil => simp
    | cons policy policies =>
      rw [List.forall₂_cons, List.forall₂_cons, conforms_iff_presents rewritten, ih]

theorem names_of_conforming {emitted : List (Value Number)} {policies : List ChatMCPToolPolicy}
    (each : List.Forall₂ (fun tool policy => policy ∈ chatMCPToolPolicies ∧
      ConformingTool policy tool) emitted policies) :
    emitted.map nameOf = policies.map fun policy => some policy.tool := by
  induction each with
  | nil => rfl
  | cons conforms _ ih => rw [List.map_cons, List.map_cons, nameOf_conforming conforms.2, ih]

/-! ### Names -/

def isName (member : String × Value Number) : Bool := foldName member.1 == foldName "name"

/-- At most one key is a name, up to case, and it is spelled `name`. -/
def NamedOnce (members : List (String × Value Number)) : Prop :=
  (members.filter isName).map (·.1) ∈ [[], ["name"]]

instance (members : List (String × Value Number)) : Decidable (NamedOnce members) :=
  inferInstanceAs (Decidable (_ ∈ _))

/-- The object has one name at most, spelled `name`, and decodes into a map. -/
def PlainTool (finite : Number → Bool) (tool : Value Number) : Prop :=
  ∀ members, tool = .object members →
    NamedOnce members ∧ (Value.decodedMembers finite members).isSome

theorem NamedOnce.only {members : List (String × Value Number)} (once : NamedOnce members)
    {member : String × Value Number} (listed : member ∈ members) (name : isName member = true) :
    member.1 = "name" ∧ ∀ other ∈ members, isName other = true → other = member := by
  have kept : member ∈ members.filter isName := List.mem_filter.mpr ⟨listed, name⟩
  unfold NamedOnce at once
  rcases shape : members.filter isName with _ | ⟨first, _ | ⟨second, more⟩⟩
  · rw [shape] at kept
    exact absurd kept List.not_mem_nil
  · rw [shape] at kept once
    obtain rfl := List.mem_singleton.mp kept
    refine ⟨by simpa using once, fun other listed name => ?_⟩
    have also : other ∈ members.filter isName := List.mem_filter.mpr ⟨listed, name⟩
    rw [shape] at also
    exact List.mem_singleton.mp also
  · rw [shape] at once
    simp at once

theorem mem_assigned_name {members : List (String × Value Number)} {value : Value Number}
    (stored : value ∈ assigned ["name"] "name" members) :
    ∃ member ∈ members, isName member = true ∧ member.2 = value := by
  obtain ⟨member, kept, rfl⟩ := List.mem_map.mp stored
  obtain ⟨listed, found⟩ := List.mem_filter.mp kept
  exact ⟨member, listed, beq_iff_eq.mpr (foldName_of_fieldFor (beq_iff_eq.mp found)), rfl⟩

/-- A name that is read from a tool stands in it. -/
theorem string_of_metadataName {members : List (String × Value Number)} {name : String}
    (read : metadataName (.object members) = .ok name) (given : name ≠ "") :
    .string name ∈ assigned ["name"] "name" members := by
  simp only [metadataName] at read
  split at read
  · simp at read
  · have last := Except.ok.inj read
    cases texts : ((assigned ["name"] "name" members).filterMap textOf).getLast? with
    | none =>
      rw [texts] at last
      exact absurd last.symm given
    | some text =>
      rw [texts] at last
      obtain ⟨value, stored, found⟩ := List.mem_filterMap.mp (List.mem_of_getLast? texts)
      unfold textOf at found
      split at found
      · rw [← last, Option.getD_some, ← Option.some.inj found]
        exact stored
      · simp at found

/-- The map has the name that was read from the struct. -/
theorem get_name_of_plain {members : List (String × Value Number)} {name : String}
    (plain : PlainTool finite (.object members)) (given : name ≠ "")
    (read : metadataName (.object members) = .ok name) :
    ∃ map, Value.decodedMap finite members = some map ∧ map.get "name" = some (.string name) := by
  obtain ⟨once, decodes⟩ := plain members rfl
  obtain ⟨into, decoded⟩ := Option.isSome_iff_exists.mp decodes
  obtain ⟨⟨key, value⟩, listed, isName, text⟩ := mem_assigned_name (string_of_metadataName read given)
  obtain ⟨spelled, only⟩ := once.only listed isName
  simp only at spelled text
  subst spelled text
  refine ⟨GoMap.ofMembers into, by rw [Value.decodedMap, decoded, Option.map_some], ?_⟩
  apply GoMap.get_ofMembers
  · exact (Value.mem_decodedMembers decoded).mpr ⟨_, listed, rfl, by rw [Value.decoded]⟩
  · intro other after
    obtain ⟨⟨key, value⟩, earlier, same, read⟩ := (Value.mem_decodedMembers decoded).mp after
    simp only at same read
    subst same
    have equal := only _ earlier (by simp [AcemcpRelay.isName])
    simp only [Prod.mk.injEq, true_and] at equal
    rw [equal, Value.decoded, Option.some.injEq] at read
    exact read.symm

/-- A plain tool presents the policy under whose name it is taken. -/
theorem presents_of_plain {name : String} (plain : PlainTool finite tool)
    (taken : PassesAs tool name) (allowed : chatMCPToolPolicy name = some policy) :
    Presents finite tool policy := by
  obtain ⟨read, found, rfl⟩ := taken
  obtain ⟨known, named⟩ := chatMCPToolPolicy_eq_some allowed
  have given : read ≠ "" := by
    rintro rfl
    have none : chatMCPToolPolicy (trimSpace "") = none := by decide
    rw [none] at allowed
    cases allowed
  cases tool with
  | object members =>
    obtain ⟨map, decoded, stored⟩ := get_name_of_plain plain given found
    have presented : mapName finite (.object members) = some policy.tool := by
      rw [mapName, decoded, Option.map_some, stored, Option.bind_some, textOf, Option.getD_some,
        named]
    refine ⟨known, ?_⟩
    rw [presented]
  | null => exact absurd (Except.ok.inj found).symm given
  | bool | number | string | array => simp [metadataName] at found

/-- The tools that are taken present policies, each its own, and all that are not optional. -/
def PresentsAll (finite : Number → Bool) (raw : Value Number) : Prop :=
  ∃ policies : List ChatMCPToolPolicy, List.Forall₂ (Presents finite) (passedTools raw) policies ∧
    (policies.map (·.tool)).Nodup ∧
    ∀ policy ∈ chatMCPToolPolicies, optionalChatMCPTool policy.tool = false →
      policy.tool ∈ policies.map (·.tool)

/-- Plain tools present the policies under whose names they are taken. -/
theorem policies_of_plain {taken : List (Value Number)} {names : List String}
    (plain : ∀ tool ∈ taken, PlainTool finite tool) (allowed : ∀ tool ∈ taken, passes tool = true)
    (read : List.Forall₂ PassesAs taken names) :
    ∃ policies : List ChatMCPToolPolicy, List.Forall₂ (Presents finite) taken policies ∧
      policies.map (·.tool) = names := by
  induction read with
  | nil => exact ⟨[], .nil, rfl⟩
  | cons here _ ih =>
    obtain ⟨plainHere, plainLater⟩ := List.forall_mem_cons.mp plain
    obtain ⟨allowedHere, allowedLater⟩ := List.forall_mem_cons.mp allowed
    obtain ⟨policies, presented, named⟩ := ih plainLater allowedLater
    obtain ⟨read, found, rfl⟩ := here
    rw [passes, found] at allowedHere
    obtain ⟨policy, known⟩ := Option.isSome_iff_exists.mp allowedHere
    refine ⟨policy :: policies, .cons (presents_of_plain plainHere ⟨read, found, rfl⟩ known)
      presented, ?_⟩
    rw [List.map_cons, named, (chatMCPToolPolicy_eq_some known).2]

/-- Every tool that is listed conforms to a policy, no name is listed twice, and no tool that a
client may count on is missing, exactly if the tools that are taken present policies in this
way. Tools with one name, spelled `name`, that decode do so. -/
theorem public_tools_conform (finite : Number → Bool) (raw : Value Number)
    (emitted : List (Value Number)) (run : filterChatMCPTools finite raw = .ok emitted) :
    (((∀ tool ∈ emitted, ∃ policy ∈ chatMCPToolPolicies, ConformingTool policy tool) ∧
      (emitted.map nameOf).Nodup ∧
      ∀ policy ∈ chatMCPToolPolicies, optionalChatMCPTool policy.tool = false →
        some policy.tool ∈ emitted.map nameOf) ↔ PresentsAll finite raw) ∧
    ((∀ tool ∈ passedTools raw, PlainTool finite tool) → PresentsAll finite raw) := by
  obtain ⟨names, distinct, read, complete, each⟩ := filterChatMCPTools_ok run
  refine ⟨⟨?_, ?_⟩, ?_⟩
  · rintro ⟨conform, nodup, listed⟩
    obtain ⟨policies, conforming⟩ := exists_forall₂_iff.mpr conform
    have shown := names_of_conforming conforming
    have lifted : (policies.map fun policy => some policy.tool) =
        (policies.map (·.tool)).map some := by rw [List.map_map]; rfl
    rw [shown, lifted] at nodup listed
    refine ⟨policies, (forall₂_conforms each).mp conforming, nodup.of_map, ?_⟩
    intro policy known needed
    exact (List.mem_map_of_injective (Option.some_injective _)).mp (listed policy known needed)
  · rintro ⟨policies, presented, nodup, listed⟩
    have conforming := (forall₂_conforms each).mpr presented
    have shown := names_of_conforming conforming
    have lifted : (policies.map fun policy => some policy.tool) =
        (policies.map (·.tool)).map some := by rw [List.map_map]; rfl
    rw [shown, lifted]
    refine ⟨?_, nodup.map (Option.some_injective _), ?_⟩
    · exact exists_forall₂_iff.mp ⟨policies, conforming⟩
    · intro policy known needed
      exact List.mem_map_of_mem (listed policy known needed)
  · intro plain
    have allowed : ∀ tool ∈ passedTools raw, passes tool = true := by
      intro tool member
      cases raw with
      | array tools => exact (List.mem_filter.mp member).2
      | null | bool | number | string | object => exact absurd member List.not_mem_nil
    obtain ⟨policies, presented, rfl⟩ := policies_of_plain plain allowed read
    exact ⟨policies, presented, distinct, complete⟩

/-! ### A name in another case -/

/-- A tool under the key, with what its policy requires and the tenant among its properties. -/
def toolUnder (key : String) (policy : ChatMCPToolPolicy) : List (String × Value Nat) :=
  [(key, .string policy.tool), ("inputSchema", .object [("properties",
    .object ((policy.required ++ ["tenant_id"]).map fun field => (field, .null)))])]

/-- All tools, the search under the key. -/
def toolsOfLCE (key : String) : Value Nat :=
  .array (chatMCPToolPolicies.map fun policy => .object
    (toolUnder (if policy.tool = "codebase-retrieval" then key else "name") policy))

/-- The properties in the schema of a tool. -/
def propertiesOf : Value Number → Option (List String)
  | .object members =>
    match Value.member "inputSchema" members with
    | some (.object schema) =>
      match Value.member "properties" schema with
      | some (.object properties) => some (properties.map (·.1))
      | _ => none
    | _ => none
  | _ => none

theorem public_tools_conform_all : ∃ emitted,
    filterChatMCPTools (fun _ => true) (toolsOfLCE "name") = .ok emitted ∧
      ∀ tool ∈ emitted, ∃ policy ∈ chatMCPToolPolicies, ConformingTool policy tool := by
  have runs : (filterChatMCPTools (fun _ => true) (toolsOfLCE "name")).toBool = true := by
    decide +kernel
  have plain : ∀ policy ∈ chatMCPToolPolicies,
      NamedOnce (toolUnder (if policy.tool = "codebase-retrieval" then "name" else "name") policy) ∧
      (Value.decodedMembers (fun _ => true) (toolUnder
        (if policy.tool = "codebase-retrieval" then "name" else "name") policy)).isSome := by
    decide +kernel
  cases run : filterChatMCPTools (fun _ => true) (toolsOfLCE "name") with
  | error message => simp [run, Except.toBool] at runs
  | ok emitted =>
    obtain ⟨exactly, enough⟩ := public_tools_conform _ _ emitted run
    refine ⟨emitted, rfl, (exactly.mpr (enough ?_)).1⟩
    intro tool taken
    obtain ⟨policy, known, rfl⟩ := List.mem_map.mp (List.mem_filter.mp taken).1
    rintro members ⟨⟩
    exact plain policy known

/-- A tool that spells its name `Name` is listed as LCE sent it: without a name, and with a
property that no policy allows. -/
theorem public_tools_pass_unrewritten : ∃ emitted,
    filterChatMCPTools (fun _ => true) (toolsOfLCE "Name") = .ok emitted ∧
      (∃ tool ∈ emitted, nameOf tool = none ∧
        propertiesOf tool = some ["information_request", "tenant_id"]) ∧
      ¬ ∀ tool ∈ emitted, ∃ policy ∈ chatMCPToolPolicies, ConformingTool policy tool := by
  have seen : (filterChatMCPTools (fun _ => true) (toolsOfLCE "Name")).toOption.map
      (·.any fun tool => nameOf tool == none &&
        propertiesOf tool == some ["information_request", "tenant_id"]) = some true := by
    decide +kernel
  cases run : filterChatMCPTools (fun _ => true) (toolsOfLCE "Name") with
  | error message => simp [run, Except.toOption] at seen
  | ok emitted =>
    rw [run] at seen
    obtain ⟨tool, listed, found⟩ := List.any_eq_true.mp (Option.some.inj seen)
    simp only [Bool.and_eq_true, beq_iff_eq] at found
    refine ⟨emitted, rfl, ⟨tool, listed, found⟩, fun all => ?_⟩
    obtain ⟨policy, -, conforms⟩ := all tool listed
    rw [nameOf_conforming conforms] at found
    simp at found

end AcemcpRelay
