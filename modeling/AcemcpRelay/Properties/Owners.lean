import AcemcpRelay.Authentication
import AcemcpRelay.QuotaTables

/-!
# Who owns an organization

Three places ask whether a role list contains `owner`. The quota query removes all white
space and looks for the word between commas; the authorization query splits at commas and
the white space next to them; `normalizeOrgRole` splits at commas and trims each part. They
differ in white space at the two ends of the list, which the second leaves in place, and
within a part, which the first removes; and the first two take white space from the locale of
the database, the third from Unicode.

Where all three agree on each role list, the query for the quota and the one for the seats
find the same member. That member is let in as the owner exactly if the first row they have
in the organization is the one they own it by.
-/
namespace AcemcpRelay

open Store

/-! ### Role lists -/

section

variable {space : SpaceClass}

/-- A reading of the parts that does not see white space at their ends. -/
theorem map_splitRoles {read : List Char → List Char}
    (front : ∀ cs, read (cs.dropWhile space.isSpace) = read cs)
    (back : ∀ cs, read (cs.rdropWhile space.isSpace) = read cs) (role : String) :
    (splitRoles space role).map read = (splitOn ',' role.toList).map read := by
  have later (part : List Char) (rest : List (List Char)) :
      (splitRolesFrom space part rest).map read = (part :: rest).map read := by
    induction rest generalizing part with
    | nil => rfl
    | cons next rest ih =>
      have cut : read (part.reverse.dropWhile space.isSpace).reverse = read part := back part
      rw [splitRolesFrom, List.map_cons, cut, ih, List.map_cons, front, List.map_cons,
        List.map_cons]
  obtain ⟨part, parts, split⟩ := exists_splitOn ',' role.toList
  rw [splitRoles, split]
  exact later part parts

theorem filter_dropWhile_space (cs : List Char) :
    (cs.dropWhile space.isSpace).filter (!space.isSpace ·) = cs.filter (!space.isSpace ·) := by
  induction cs with
  | nil => rfl
  | cons c cs ih =>
    by_cases blank : space.isSpace c = true
    · rw [List.dropWhile_cons_of_pos blank, ih, List.filter_cons_of_neg (by simp [blank])]
    · rw [List.dropWhile_cons_of_neg blank]

theorem filter_rdropWhile_space (cs : List Char) :
    (cs.rdropWhile space.isSpace).filter (!space.isSpace ·) = cs.filter (!space.isSpace ·) := by
  rw [List.rdropWhile, List.filter_reverse, filter_dropWhile_space, List.filter_reverse,
    List.reverse_reverse]

theorem filter_owner : "owner".toList.filter (!space.isSpace ·) = "owner".toList := by
  have letters : ("owner".toList.all fun c => c.toNat < 128 && !asciiSpace c) = true := by decide
  rw [List.filter_eq_self]
  intro c member
  have letter := List.all_eq_true.mp letters c member
  simp only [Bool.and_eq_true, decide_eq_true_eq, Bool.not_eq_true'] at letter
  rw [space.ascii c letter.1, letter.2]
  rfl

/-- What the authorization query takes for `owner` the quota query does too. -/
theorem owner_mem_filter {role : String} (split : "owner".toList ∈ splitRoles space role) :
    "owner".toList ∈ (splitOn ',' role.toList).map (List.filter (!space.isSpace ·)) := by
  rw [← map_splitRoles filter_dropWhile_space filter_rdropWhile_space]
  exact List.mem_map.mpr ⟨_, split, filter_owner⟩

/-- `normalizeOrgRole` looks for a part that is `owner` up to white space around it. -/
theorem normalizeOrgRole_eq_owner {role orgID : String} (organization : trimSpace orgID ≠ "") :
    normalizeOrgRole role orgID = "owner" ↔
      "owner".toList ∈ (splitOn ',' role.toList).map (trimChars isSpace) := by
  have part (cs : List Char) :
      (trimSpace (String.ofList cs) == "owner") = true ↔ trimChars isSpace cs = "owner".toList := by
    rw [beq_iff_eq, trimSpace, String.toList_ofList, ← String.toList_inj, String.toList_ofList]
  have found : (splitOn ',' role.toList).any (fun cs => trimSpace (String.ofList cs) == "owner") =
      true ↔ "owner".toList ∈ (splitOn ',' role.toList).map (trimChars isSpace) := by
    rw [List.any_eq_true, List.mem_map]
    simp only [part]
  rw [normalizeOrgRole, if_neg organization, ← found]
  split
  · simp_all
  · simp_all

theorem normalizeOrgRole_trimSpace {role orgID : String} (organization : trimSpace orgID ≠ "") :
    normalizeOrgRole (trimSpace role) orgID = "owner" ↔ normalizeOrgRole role orgID = "owner" := by
  have same : (splitOn ',' (trimChars isSpace role.toList)).map (trimChars isSpace) = _ :=
    map_trim_splitOn (by decide) role.toList
  rw [normalizeOrgRole_eq_owner organization, normalizeOrgRole_eq_owner organization, trimSpace,
    String.toList_ofList, same]

/-- The search of the quota query. -/
theorem contains_owner {role : List Char} :
    contains ("," ++ String.ofList role ++ ",") ",owner," = true ↔
      "owner".toList ∈ splitOn ',' role := by
  have word : ',' ∉ "owner".toList := by decide
  have text : ("," ++ String.ofList role ++ ",").toList = ',' :: (role ++ [',']) := by simp
  have phrase : ",owner,".toList = ',' :: ("owner".toList ++ [',']) := by decide
  rw [contains_iff, text, phrase]
  exact infix_iff_mem_splitOn word

/-- The list is read in one way. If the split of the authorization query has the element
`owner`, then Go's trimming leaves it of some part; if not, no part becomes `owner` when white
space is removed from it or from its ends. -/
def ReadAlike (space : SpaceClass) (role : String) : Prop :=
  if (splitRoles space role).contains "owner".toList then
    ∃ part ∈ splitOn ',' role.toList, trimChars isSpace part = "owner".toList
  else ∀ part ∈ splitOn ',' role.toList,
    part.filter (!space.isSpace ·) ≠ "owner".toList ∧ trimChars isSpace part ≠ "owner".toList

instance (space : SpaceClass) (role : String) : Decidable (ReadAlike space role) :=
  inferInstanceAs (Decidable (if (splitRoles space role).contains "owner".toList then
    ∃ part ∈ splitOn ',' role.toList, trimChars isSpace part = "owner".toList
  else ∀ part ∈ splitOn ',' role.toList,
    part.filter (!space.isSpace ·) ≠ "owner".toList ∧ trimChars isSpace part ≠ "owner".toList))

namespace Member

variable {member : Member}

theorem owns_iff : member.owns space = true ↔
    "owner".toList ∈ splitRoles space (member.role.getD "") := by
  rw [owns, List.contains_iff_mem]

theorem ownsQuota_iff : member.ownsQuota space = true ↔ "owner".toList ∈
    (splitOn ',' (member.role.getD "").toList).map (List.filter (!space.isSpace ·)) := by
  have comma : space.isSpace ',' = false := by
    rw [space.ascii ',' (by decide)]
    rfl
  unfold ownsQuota
  cases member.role with
  | none => simp [splitOn]
  | some role =>
    rw [Option.any_some, contains_owner, splitOn_filter (by simp [comma])]
    rfl

/-- The three readings of a role list agree exactly if it is read in one way. -/
theorem readAlike_iff {orgID : String} (organization : trimSpace orgID ≠ "") :
    (member.ownsQuota space = member.owns space ∧
      (normalizeOrgRole (member.role.getD "") orgID = "owner" ↔ member.owns space = true)) ↔
      ReadAlike space (member.role.getD "") := by
  rw [Bool.eq_iff_iff, ownsQuota_iff, owns_iff, normalizeOrgRole_eq_owner organization, ReadAlike]
  split
  next listed =>
    have split := List.contains_iff_mem.mp listed
    have quota := owner_mem_filter split
    simp only [split, quota, iff_true, List.mem_map, true_and]
  next unlisted =>
    have split := mt List.contains_iff_mem.mpr unlisted
    simp only [split, iff_false, List.mem_map, not_exists, not_and]
    exact ⟨fun both part listed => ⟨both.1 part listed, both.2 part listed⟩,
      fun each => ⟨fun part listed => (each part listed).1, fun part listed => (each part listed).2⟩⟩

end Member

end

/-! ### The owner of an organization -/

namespace Member

instance : IsTrans Member notLater where
  trans a b c first second := by
    rcases first with less | ⟨same, ids⟩
    · rcases second with less' | ⟨same', -⟩
      · exact .inl (less.trans less')
      · exact .inl (same' ▸ less)
    · rcases second with less' | ⟨same', ids'⟩
      · exact .inl (same ▸ less')
      · exact .inr ⟨same.trans same', le_trans ids ids'⟩

instance : Std.Total notLater where
  total a b := by
    unfold notLater
    rcases lt_trichotomy a.createdAt b.createdAt with less | same | more
    · exact .inl (.inl less)
    · rcases le_total a.id b.id with ids | ids
      · exact .inl (.inr ⟨same, ids⟩)
      · exact .inr (.inr ⟨same.symm, ids⟩)
    · exact .inr (.inl more)

/-- Two rows of a table, neither of which is later, are the same. -/
theorem eq_of_notLater {members : Table Member.id} {a b : Member} (listedA : a ∈ members)
    (listedB : b ∈ members) (first : a.notLater b) (second : b.notLater a) : a = b := by
  have ids : a.id = b.id := by
    rcases first with less | ⟨same, ids⟩
    · rcases second with less' | ⟨same', -⟩
      · exact absurd (less.trans less') (lt_irrefl _)
      · exact absurd (same' ▸ less) (lt_irrefl _)
    · rcases second with less' | ⟨-, ids'⟩
      · exact absurd (same ▸ less') (lt_irrefl _)
      · exact le_antisymm ids ids'
  exact Table.eq_of_key_eq listedA listedB ids

end Member

/-- The first of the sorted rows is one of them, and no other is earlier. -/
theorem head?_sorted {member : Member} {members : List Member}
    (first : (members.insertionSort Member.notLater).head? = some member) :
    member ∈ members ∧ ∀ other ∈ members, member.notLater other := by
  obtain ⟨rest, sorted⟩ := List.head?_eq_some_iff.mp first
  have ordered := List.pairwise_insertionSort Member.notLater members
  rw [sorted, List.pairwise_cons] at ordered
  have stays (other : Member) : other ∈ members ↔ other ∈ member :: rest := by
    rw [← sorted, List.mem_insertionSort]
  refine ⟨(stays member).mpr List.mem_cons_self, fun other listed => ?_⟩
  rcases List.mem_cons.mp ((stays other).mp listed) with rfl | later
  · exact .inr ⟨rfl, le_refl _⟩
  · exact ordered.1 other later

theorem exists_head?_sorted {member : Member} {members : List Member} (listed : member ∈ members) :
    ∃ first, (members.insertionSort Member.notLater).head? = some first := by
  cases sorted : members.insertionSort Member.notLater with
  | nil =>
    have stays := (List.mem_insertionSort Member.notLater).mpr listed
    rw [sorted] at stays
    exact absurd stays List.not_mem_nil
  | cons first rest => exact ⟨first, rfl⟩

/-- The row is that of the earliest owner of its organization, under identifiers as the code
leaves them. -/
structure AuthTables.EarliestOwner (auth : AuthTables) (owner : Member) : Prop where
  listed : owner ∈ auth.members
  owns : owner.owns auth.space = true
  first : ∀ other ∈ auth.members, other.organizationID = owner.organizationID →
    other.owns auth.space = true → owner.notLater other
  known : auth.organizations.contains owner.organizationID = true
  organization : trimSpace owner.organizationID ≠ ""
  user : trimSpace owner.userID = owner.userID

/-- What is asked of the membership table: each role list is read in one way, and the earliest
owner of an organization has no earlier row there without the role. -/
structure AuthTables.OneReading (auth : AuthTables) : Prop where
  roles : ∀ member ∈ auth.members, ReadAlike auth.space (member.role.getD "")
  first : ∀ owner, auth.EarliestOwner owner → ∀ row ∈ auth.members,
    row.organizationID = owner.organizationID → row.userID = owner.userID → row.notLater owner →
      row.owns auth.space = true

section

variable {auth : AuthTables} {quota : QuotaTables} {orgID : String} {owner : Member}

/-- The quota query and the authorization query agree on each member. -/
theorem canonicalOwner_eq_targetOwner (shared : quota.members = auth.members)
    (locale : quota.space = auth.space)
    (roles : ∀ member ∈ auth.members, ReadAlike auth.space (member.role.getD "")) :
    quota.canonicalOwner orgID = auth.targetOwner orgID := by
  have same : (auth.members.select fun member => member.organizationID == orgID &&
        member.ownsQuota auth.space) =
      auth.members.select fun member => member.organizationID == orgID && member.owns auth.space := by
    refine List.filter_congr fun member listed => ?_
    -- the two predicates read the role only
    have organization : trimSpace "org" ≠ "" := by decide
    rw [((Member.readAlike_iff organization).mpr (roles member listed)).1]
  rw [QuotaTables.canonicalOwner, shared, locale, same, AuthTables.targetOwner]

theorem targetOwner_spec (found : auth.targetOwner orgID = some owner) :
    owner ∈ auth.members ∧ owner.organizationID = orgID ∧ owner.owns auth.space = true ∧
      ∀ other ∈ auth.members, other.organizationID = orgID → other.owns auth.space = true →
        owner.notLater other := by
  obtain ⟨listed, first⟩ := head?_sorted found
  rw [Table.mem_select, Bool.and_eq_true, beq_iff_eq] at listed
  refine ⟨listed.1, listed.2.1, listed.2.2, fun other member here owns => first other ?_⟩
  rw [Table.mem_select, Bool.and_eq_true, beq_iff_eq]
  exact ⟨member, here, owns⟩

/-- An earliest owner is the one that the authorization query finds. -/
theorem AuthTables.EarliestOwner.targetOwner (earliest : auth.EarliestOwner owner) :
    auth.targetOwner owner.organizationID = some owner := by
  have selected : owner ∈ auth.members.select fun member =>
      member.organizationID == owner.organizationID && member.owns auth.space := by
    rw [Table.mem_select, Bool.and_eq_true, beq_iff_eq]
    exact ⟨earliest.listed, rfl, earliest.owns⟩
  obtain ⟨found, head⟩ := exists_head?_sorted selected
  obtain ⟨listed, here, owns, before⟩ := targetOwner_spec head
  have same : found = owner := Member.eq_of_notLater listed earliest.listed
    (before owner earliest.listed rfl earliest.owns) (earliest.first found listed here owns)
  rw [AuthTables.targetOwner, head, same]

theorem targetMembership_spec {userID : String} {row : Member}
    (found : auth.targetMembership orgID userID = some row) :
    row ∈ auth.members ∧ row.organizationID = orgID ∧ row.userID = userID ∧
      ∀ other ∈ auth.members, other.organizationID = orgID → other.userID = userID →
        row.notLater other := by
  obtain ⟨listed, first⟩ := head?_sorted found
  rw [Table.mem_select, Bool.and_eq_true, Bool.and_eq_true, beq_iff_eq, beq_iff_eq] at listed
  obtain ⟨member, ⟨here, own⟩, known⟩ := listed
  refine ⟨member, here, own, fun other listed sameOrg sameUser => first other ?_⟩
  rw [Table.mem_select, Bool.and_eq_true, Bool.and_eq_true, beq_iff_eq, beq_iff_eq, sameOrg, ← here]
  exact ⟨listed, ⟨rfl, sameUser⟩, known⟩

theorem exists_targetMembership {row : Member} (listed : row ∈ auth.members)
    (known : auth.organizations.contains row.organizationID = true) :
    ∃ first, auth.targetMembership row.organizationID row.userID = some first := by
  apply exists_head?_sorted
  · exact Table.mem_select.mpr ⟨listed, by rw [beq_self_eq_true, beq_self_eq_true, known]; rfl⟩

end

section

variable {auth : AuthTables} {now : Nat} {owner row : Member}

/-- The earliest owner, whose first row in the organization is `row`, is let in as the owner
exactly if that row has the role. -/
theorem authorize_owner (identity : AuthIdentity) (personal : identity.orgID ≠ "")
    (organization : trimSpace identity.orgID ≠ "")
    (found : auth.targetOwner identity.orgID = some owner) (named : owner.userID ≠ "")
    (trimmed : trimSpace owner.userID = owner.userID) (own : identity.userID = owner.userID)
    (membership : auth.targetMembership identity.orgID owner.userID = some row)
    (alike : ReadAlike auth.space (row.role.getD "")) :
    auth.authorizeOrganizationIdentity now identity = some { identity with orgRole := "owner" } ↔
      row.owns auth.space = true := by
  have role : normalizeOrgRole (trimSpace (row.role.getD "")) identity.orgID = "owner" ↔
      row.owns auth.space = true := by
    rw [normalizeOrgRole_trimSpace organization]
    exact ((Member.readAlike_iff organization).mpr alike).2
  simp only [AuthTables.authorizeOrganizationIdentity, if_neg personal, found, Option.map_some,
    Option.getD_some, own, membership, Option.bind_some, trimmed]
  rw [← role]
  by_cases blank : trimSpace (row.role.getD "") = ""
  · -- an empty role is refused, and is no owner's
    rw [if_pos (.inl blank), blank, normalizeOrgRole, if_neg organization]
    simp only [reduceCtorEq, false_iff]
    decide
  · rw [if_neg (not_or.mpr ⟨blank, named⟩), if_pos trivial, Option.some.injEq]
    constructor
    · intro same
      exact congrArg AuthIdentity.orgRole same
    · intro same
      rw [same]

end

/-- An organization of two, each with a role list. -/
def twoMembers (first second : String) : Table Member.id :=
  { rows := [⟨"m1", "acme", "ann", some first, 1⟩, ⟨"m2", "acme", "bob", some second, 2⟩]
    unique := by simp }

def twoMembersAuth (first second : String) : AuthTables :=
  { apiKeys := .empty, members := twoMembers first second, organizations := ["acme"]
    subscriptions := .empty }

def twoMembersQuota (first second : String) : QuotaTables :=
  { members := twoMembers first second, tierKeys := .empty, userQuotas := .empty
    subscriptions := .empty, orgQuotas := .empty
    named := by
      intro member listed
      rcases List.mem_pair.mp listed with rfl | rfl <;> simp }

end AcemcpRelay
