import AcemcpRelay.Sessions

/-!
# Slots for sessions

What `prepareMCPSessionSlot` leaves has room for one session more, and no session goes that
need not go. The search for the oldest session takes an empty identifier for none, and an
empty user for all users; of identifiers and users that are not empty, it finds the one that
was active least recently, the smaller identifier among equals.
-/
namespace AcemcpRelay

open Store

/-! ### The oldest session -/

namespace McpServerSession

/-- Active less recently; among equals, the smaller identifier. -/
def Older (a b : McpServerSession) : Prop :=
  a.lastActivity < b.lastActivity ∨ (a.lastActivity = b.lastActivity ∧ a.id < b.id)

instance : DecidableRel Older := fun a b => inferInstanceAs (Decidable
  (a.lastActivity < b.lastActivity ∨ (a.lastActivity = b.lastActivity ∧ a.id < b.id)))

variable {a b c : McpServerSession}

theorem Older.cotrans (older : a.Older c) (b : McpServerSession) : a.Older b ∨ b.Older c := by
  rcases older with earlier | ⟨same, smaller⟩
  · by_cases before : a.lastActivity < b.lastActivity
    · exact .inl (.inl before)
    · exact .inr (.inl (by omega))
  · rcases Int.lt_trichotomy a.lastActivity b.lastActivity with before | equal | behind
    · exact .inl (.inl before)
    · by_cases less : a.id < b.id
      · exact .inl (.inr ⟨equal, less⟩)
      · have atMost : b.id ≤ a.id := String.not_lt.mp less
        exact .inr (.inr ⟨equal.symm.trans same, Std.lt_of_le_of_lt atMost smaller⟩)
    · exact .inr (.inl (same ▸ behind))

theorem Older.trans (first : a.Older b) (second : b.Older c) : a.Older c := by
  rcases first with before | ⟨same, less⟩ <;> rcases second with before' | ⟨same', less'⟩
  · exact .inl (Int.lt_trans before before')
  · exact .inl (same' ▸ before)
  · exact .inl (same ▸ before')
  · exact .inr ⟨same.trans same', String.lt_trans less less'⟩

theorem older_of_not (different : a.id ≠ b.id) (notOlder : ¬ b.Older a) : a.Older b := by
  rcases Int.lt_trichotomy a.lastActivity b.lastActivity with before | equal | behind
  · exact .inl before
  · refine .inr ⟨equal, ?_⟩
    have atMost : a.id ≤ b.id := String.not_lt.mp fun less => notOlder (.inr ⟨equal.symm, less⟩)
    exact Std.lt_of_le_of_ne atMost different
  · exact absurd (.inl behind) notOlder

end McpServerSession

namespace ServerSessions

variable {userID : String} {rows : List McpServerSession} {best : McpServerSession}

/-- The search from a session on: it ends at a candidate that none is older than. -/
theorem foldl_olderOf (named : ∀ session ∈ best :: rows, session.id ≠ "")
    (isCandidate : evictable userID best = true) :
    ∃ oldest ∈ best :: rows, evictable userID oldest = true ∧
      rows.foldl (olderOf userID) (best.id, best.lastActivity) = (oldest.id, oldest.lastActivity) ∧
      ∀ session ∈ best :: rows, evictable userID session = true → ¬ session.Older oldest := by
  induction rows generalizing best with
  | nil =>
    refine ⟨best, List.mem_cons_self, isCandidate, rfl, ?_⟩
    intro session listed _ older
    rw [List.mem_singleton.mp listed] at older
    rcases older with less | ⟨-, less⟩
    · exact absurd less (Int.lt_irrefl _)
    · exact absurd less (String.lt_irrefl _)
  | cons session rows ih =>
    obtain ⟨bestNamed, namedRows⟩ := List.forall_mem_cons.mp named
    rw [List.foldl_cons]
    by_cases taken : evictable userID session = true ∧ session.Older best
    · -- the session takes the place of the best so far
      have next : olderOf userID (best.id, best.lastActivity) session =
          (session.id, session.lastActivity) := if_pos ⟨taken.1, .inr taken.2⟩
      rw [next]
      obtain ⟨oldest, listed, candidate, found, least⟩ := ih namedRows taken.1
      refine ⟨oldest, List.mem_cons_of_mem _ listed, candidate, found, ?_⟩
      refine List.forall_mem_cons.mpr ⟨fun _ older => ?_, least⟩
      exact least session List.mem_cons_self taken.1 (taken.2.trans older)
    · have next : olderOf userID (best.id, best.lastActivity) session =
          (best.id, best.lastActivity) := by
        refine if_neg ?_
        rintro ⟨candidate, none | older⟩
        · exact bestNamed none
        · exact taken ⟨candidate, older⟩
      rw [next]
      have namedRest : ∀ other ∈ best :: rows, other.id ≠ "" :=
        List.forall_mem_cons.mpr ⟨bestNamed, (List.forall_mem_cons.mp namedRows).2⟩
      obtain ⟨oldest, listed, candidate, found, least⟩ := ih namedRest isCandidate
      obtain ⟨leastBest, leastRows⟩ := List.forall_mem_cons.mp least
      refine ⟨oldest, ?_, candidate, found, ?_⟩
      · rcases List.mem_cons.mp listed with rfl | later
        · exact List.mem_cons_self
        · exact List.mem_cons_of_mem _ (List.mem_cons_of_mem _ later)
      · refine List.forall_mem_cons.mpr ⟨leastBest, List.forall_mem_cons.mpr ⟨?_, leastRows⟩⟩
        intro sessionCandidate older
        rcases older.cotrans best with before | behind
        · exact taken ⟨sessionCandidate, before⟩
        · exact leastBest isCandidate behind

/-- The search finds a candidate that none is older than, if there is one. -/
theorem foldl_olderOf_start (named : ∀ session ∈ rows, session.id ≠ "")
    (some : 0 < rows.countP (evictable userID)) :
    ∃ oldest ∈ rows, evictable userID oldest = true ∧
      rows.foldl (olderOf userID) ("", 0) = (oldest.id, oldest.lastActivity) ∧
      ∀ session ∈ rows, evictable userID session = true → ¬ session.Older oldest := by
  induction rows with
  | nil => exact absurd some (Nat.lt_irrefl 0)
  | cons session rows ih =>
    rw [List.foldl_cons]
    by_cases candidate : evictable userID session = true
    · have first : olderOf userID ("", 0) session = (session.id, session.lastActivity) :=
        if_pos ⟨candidate, .inl rfl⟩
      rw [first]
      exact foldl_olderOf named candidate
    · have skip : olderOf userID ("", 0) session = ("", 0) := if_neg fun both => candidate both.1
      rw [List.countP_cons_of_neg candidate] at some
      obtain ⟨oldest, listed, isCandidate, found, least⟩ :=
        ih (List.forall_mem_cons.mp named).2 some
      rw [skip]
      exact ⟨oldest, List.mem_cons_of_mem _ listed, isCandidate, found,
        List.forall_mem_cons.mpr ⟨fun is => absurd is candidate, least⟩⟩

/-- No session has an empty identifier. -/
def Named (sessions : ServerSessions) : Prop := ∀ session ∈ sessions, session.id ≠ ""

instance (sessions : ServerSessions) : Decidable sessions.Named :=
  inferInstanceAs (Decidable (∀ session ∈ sessions.rows, session.id ≠ ""))

theorem evictOldest_one (userID : String) :
    EvictsOne Table.rows McpServerSession.id McpServerSession.Older (evictable userID) Named
      (evictOldestMCPSession userID) where
  one sessions named some := by
    obtain ⟨oldest, listed, candidate, found, least⟩ := foldl_olderOf_start named some
    refine ⟨oldest, sessions.delete (·.id == oldest.id), ?_, ?_, Table.perm_delete_key listed, candidate, ?_⟩
    · simp only [evictOldestMCPSession, found, if_neg (named oldest listed)]
    · exact fun session kept => named session (Table.mem_delete.mp kept).1
    · intro other kept isCandidate
      obtain ⟨inTable, different⟩ := Table.mem_delete.mp kept
      rw [beq_eq_false_iff_ne] at different
      exact McpServerSession.older_of_not (Ne.symm different) (least other inTable isCandidate)

/-! ### The slot -/

theorem evictable_of_named (named : userID ≠ "") :
    evictable userID = fun session => session.userID == userID := by
  funext session
  simp [evictable, named]

/-- What making room amounts to: the sessions that have expired, those that go for the user,
those that go for all, and the rest. -/
structure SlotMade (userID : String) (now ttl : Int) (perUserLimit globalLimit : Nat)
    (sessions : ServerSessions) (old ofUser ofAll : List McpServerSession) (rest : ServerSessions) :
    Prop where
  partition : sessions.rows.Perm (old ++ (ofUser ++ (ofAll ++ rest.rows)))
  expired : ∀ session ∈ old, ttl < now - session.lastActivity
  live : ∀ session ∈ ofUser ++ (ofAll ++ rest.rows), now - session.lastActivity ≤ ttl
  own : ∀ session ∈ ofUser, session.userID = userID
  leastOfUser : ofUser.Pairwise McpServerSession.Older ∧ ∀ session ∈ ofUser,
    ∀ other ∈ ofAll ++ rest.rows, other.userID = userID → session.Older other
  leastOfAll : ofAll.Pairwise McpServerSession.Older ∧ ∀ session ∈ ofAll,
    ∀ other ∈ rest.rows, session.Older other
  -- no more than are too many
  countOfUser : ofUser.length =
    (ofUser ++ (ofAll ++ rest.rows)).countP (·.userID == userID) + 1 - perUserLimit
  countOfAll : ofAll.length = (ofAll ++ rest.rows).length + 1 - globalLimit
  userRoom : rest.countMCPSessionsForUser userID < perUserLimit
  room : rest.rows.length < globalLimit

theorem prepare_slotMade {sessions : ServerSessions} (now ttl : Int)
    {perUserLimit globalLimit : Nat} (named : sessions.Named) (user : userID ≠ "") (perUser : 1 ≤ perUserLimit)
    (global : 1 ≤ globalLimit) :
    ∃ old ofUser ofAll rest,
      sessions.prepareMCPSessionSlot userID now ttl perUserLimit globalLimit =
        some (old.map (·.id), ofUser.map (·.id), ofAll.map (·.id), rest) ∧
      rest.Named ∧
      SlotMade userID now ttl perUserLimit globalLimit sessions old ofUser ofAll rest := by
  -- the three phases, one after the other
  have pruned : sessions.rows.Perm
      (sessions.select (expired now ttl) ++ (sessions.delete (expired now ttl)).rows) :=
    (List.filter_append_perm _ _).symm
  have liveNamed : Named (sessions.delete (expired now ttl)) :=
    fun session kept => named session (Table.mem_delete.mp kept).1
  have fewer : (sessions.delete (expired now ttl)).rows.length ≤ sessions.rows.length :=
    List.length_filter_le _ _
  have userFull : ∀ state : ServerSessions,
      (decide (0 < perUserLimit) && decide (perUserLimit ≤ state.countMCPSessionsForUser userID)) =
        true ↔ perUserLimit ≤ state.rows.countP (evictable userID) := by
    intro state
    rw [evictable_of_named user, Bool.and_eq_true, decide_eq_true_iff, decide_eq_true_iff]
    exact ⟨And.right, fun many => ⟨perUser, many⟩⟩
  have everyone (rows : List McpServerSession) : rows.countP (evictable "") = rows.length :=
    List.countP_eq_length.mpr fun _ _ => rfl
  have globalFull : ∀ state : ServerSessions,
      (decide (0 < globalLimit) && decide (globalLimit ≤ state.rows.length)) = true ↔
        globalLimit ≤ state.rows.countP (evictable "") := by
    intro state
    rw [everyone, Bool.and_eq_true, decide_eq_true_iff, decide_eq_true_iff]
    exact ⟨And.right, fun many => ⟨global, many⟩⟩
  have userRounds : (sessions.delete (expired now ttl)).rows.countP (evictable userID) <
      sessions.rows.length + 1 :=
    Nat.lt_succ_of_le (Nat.le_trans List.countP_le_length fewer)
  obtain ⟨ofUser, middle, userRun, middleNamed, userEvicts, userCount, userRoom⟩ :=
    evictWhile_spec (evictOldest_one userID) perUser userFull liveNamed userRounds
  have shorter : middle.rows.length ≤ sessions.rows.length := by
    have := userEvicts.conserved.length_eq
    rw [List.length_append] at this
    omega
  have allRounds : middle.rows.countP (evictable "") < sessions.rows.length + 1 :=
    Nat.lt_succ_of_le (Nat.le_trans List.countP_le_length shorter)
  obtain ⟨ofAll, rest, allRun, restNamed, allEvicts, allCount, room⟩ :=
    evictWhile_spec (evictOldest_one "") global globalFull middleNamed allRounds
  rw [everyone] at allCount room
  have remaining : (sessions.delete (expired now ttl)).rows.Perm
      (ofUser ++ (ofAll ++ rest.rows)) :=
    userEvicts.conserved.trans (allEvicts.conserved.append_left ofUser)
  have userRows : (sessions.delete (expired now ttl)).rows.countP (evictable userID) =
      (ofUser ++ (ofAll ++ rest.rows)).countP (·.userID == userID) := by
    rw [remaining.countP_eq, evictable_of_named user]
  refine ⟨sessions.select (expired now ttl), ofUser, ofAll, rest, ?_, restNamed, ?_⟩
  · simp only [prepareMCPSessionSlot, pruneExpiredMCPSessions, userRun, allRun]
  refine ⟨pruned.trans (remaining.append_left _), ?_, ?_, ?_, ⟨userEvicts.ordered, ?_⟩,
    ⟨allEvicts.ordered, ?_⟩, userRows ▸ userCount, ?_, ?_, room⟩
  · intro session listed
    exact of_decide_eq_true (Table.mem_select.mp listed).2
  · intro session listed
    have kept : session ∈ sessions.delete (expired now ttl) := remaining.mem_iff.mpr listed
    exact Int.not_lt.mp (of_decide_eq_false (Table.mem_delete.mp kept).2)
  · intro session listed
    have candidate := userEvicts.candidates session listed
    rw [evictable_of_named user] at candidate
    exact beq_iff_eq.mp candidate
  · intro session listed other remains same
    refine userEvicts.oldest session listed other (allEvicts.conserved.mem_iff.mpr remains) ?_
    rw [evictable_of_named user]
    exact beq_iff_eq.mpr same
  · exact fun session listed other remains => allEvicts.oldest session listed other remains rfl
  · rw [allCount, allEvicts.conserved.length_eq]
  · have fewerOfUser := allEvicts.countP_le (evictable userID)
    rw [evictable_of_named user] at fewerOfUser userRoom
    exact Nat.lt_of_le_of_lt fewerOfUser userRoom

/-! ### Runs -/

theorem count_put_le (sessions : ServerSessions) (session : McpServerSession)
    (p : McpServerSession → Bool) :
    (sessions.put session).count p ≤ sessions.count p + if p session then 1 else 0 := by
  have fewer := sessions.count_delete_le (fun other => decide (other.id = session.id)) p
  unfold Table.count at fewer ⊢
  rw [Table.put, List.countP_cons]
  omega

/-- What holds at all times. -/
structure WithinLimits (limits : SessionLimits) (sessions : ServerSessions) : Prop where
  named : sessions.Named
  perUser : ∀ userID, sessions.countMCPSessionsForUser userID ≤ limits.perUser
  all : sessions.rows.length ≤ limits.all

variable {limits : SessionLimits} {sessions : ServerSessions}

theorem WithinLimits.delete (within : WithinLimits limits sessions) (p : McpServerSession → Bool) :
    WithinLimits limits (sessions.delete p) where
  named session kept := within.named session (Table.mem_delete.mp kept).1
  perUser userID := Nat.le_trans (sessions.count_delete_le p _) (within.perUser userID)
  all := Nat.le_trans (List.length_filter_le _ _) within.all

theorem WithinLimits.touch (within : WithinLimits limits sessions) (sessionID : String) (now : Int) :
    WithinLimits limits
      (sessions.update (·.id == sessionID) ({ · with lastActivity := now })) where
  named := by
    intro session stored
    obtain ⟨old, known, rfl⟩ := (Table.mem_update).mp stored
    have same : (if old.id == sessionID then { old with lastActivity := now } else old).id = old.id := by
      split <;> rfl
    rw [same]
    exact within.named old known
  perUser userID := by
    have same : Table.count (sessions.update (·.id == sessionID) ({ · with lastActivity := now }))
        (·.userID == userID) = sessions.count (·.userID == userID) := by
      apply Table.count_update
      intro session _ _
      rfl
    exact Nat.le_trans (Nat.le_of_eq same) (within.perUser userID)
  all := by
    rw [Table.update, List.length_map]
    exact within.all

/-- A slot is made, and filled. -/
theorem SlotMade.filled {userID : String} {now ttl : Int} {perUserLimit globalLimit : Nat}
    {old ofUser ofAll : List McpServerSession} {rest : ServerSessions}
    (made : SlotMade userID now ttl perUserLimit globalLimit sessions old ofUser ofAll rest)
    (newSID : String) :
    countMCPSessionsForUser userID (rest.put ⟨newSID, userID, now⟩) ≤ perUserLimit ∧
      (rest.put ⟨newSID, userID, now⟩).rows.length ≤ globalLimit := by
  constructor
  · have added := count_put_le rest ⟨newSID, userID, now⟩ (·.userID == userID)
    have room := made.userRoom
    unfold countMCPSessionsForUser at room ⊢
    rw [if_pos (beq_self_eq_true userID)] at added
    omega
  · have room := made.room
    have fewer : (rest.delete fun other => decide (other.id = newSID)).rows.length ≤
        rest.rows.length := List.length_filter_le _ _
    rw [Table.put, List.length_cons]
    exact Nat.le_trans (Nat.succ_le_succ fewer) room

/-- Other users have no more sessions than before. -/
theorem SlotMade.others {userID other : String} {now ttl : Int} {perUserLimit globalLimit : Nat}
    {old ofUser ofAll : List McpServerSession} {rest : ServerSessions}
    (made : SlotMade userID now ttl perUserLimit globalLimit sessions old ofUser ofAll rest)
    (different : other ≠ userID) (newSID : String) :
    countMCPSessionsForUser other (rest.put ⟨newSID, userID, now⟩) ≤
      sessions.countMCPSessionsForUser other := by
  have added := count_put_le rest ⟨newSID, userID, now⟩ (·.userID == other)
  rw [if_neg (by simpa using Ne.symm different), Nat.add_zero] at added
  refine Nat.le_trans added ?_
  unfold countMCPSessionsForUser Table.count
  rw [made.partition.countP_eq]
  simp only [List.countP_append]
  omega

theorem WithinLimits.openSession {userID newSID : String} (within : WithinLimits limits sessions)
    (named : userID ≠ "") (namedSID : newSID ≠ "") (now : Int) :
    WithinLimits limits (sessions.step limits (.initializeSession userID newSID now)) := by
  obtain ⟨old, ofUser, ofAll, rest, prepared, restNamed, made⟩ :=
    prepare_slotMade now limits.ttl within.named named limits.positive.1 limits.positive.2
  simp only [step, prepared]
  refine ⟨?_, fun other => ?_, (made.filled newSID).2⟩
  · intro session stored
    rcases Table.mem_put.mp stored with rfl | ⟨kept, -⟩
    · exact namedSID
    · exact restNamed session kept
  · by_cases same : other = userID
    · subst same
      exact (made.filled newSID).1
    · exact Nat.le_trans (made.others same newSID) (within.perUser other)

end ServerSessions

/-- Users and new sessions have names that are not empty. -/
def SessionEvent.Named : SessionEvent → Prop
  | .initializeSession userID newSID _ => userID ≠ "" ∧ newSID ≠ ""
  | .touch _ _ _ | .delete _ _ | .sweep _ => True

instance : (event : SessionEvent) → Decidable event.Named
  | .initializeSession userID newSID _ => inferInstanceAs (Decidable (userID ≠ "" ∧ newSID ≠ ""))
  | .touch _ _ _ | .delete _ _ | .sweep _ => .isTrue trivial

namespace ServerSessions

theorem WithinLimits.step {limits : SessionLimits} {sessions : ServerSessions}
    (within : WithinLimits limits sessions) {event : SessionEvent} (named : event.Named) :
    WithinLimits limits (sessions.step limits event) := by
  cases event with
  | initializeSession userID newSID now => exact within.openSession named.1 named.2 now
  | touch sessionID userID now =>
    simp only [ServerSessions.step, touchMCPSession]
    cases sessions.lookup sessionID with
    | none => exact within
    | some session =>
      dsimp only
      split
      · exact within
      · exact within.touch sessionID now
  | delete sessionID userID =>
    simp only [ServerSessions.step, deleteMCPSession]
    cases sessions.lookup sessionID with
    | none => exact within
    | some session =>
      dsimp only
      split
      · exact within.delete _
      · exact within
  | sweep now => exact within.delete _

theorem withinLimits_empty (limits : SessionLimits) : WithinLimits limits .empty where
  named session stored := absurd stored (Table.not_mem_empty session)
  perUser _ := Nat.zero_le _
  all := Nat.zero_le _

theorem withinLimits_run {limits : SessionLimits} {events : List SessionEvent}
    (named : ∀ event ∈ events, event.Named) {sessions : ServerSessions}
    (within : WithinLimits limits sessions) :
    WithinLimits limits (runFrom (ServerSessions.step limits) sessions events) := by
  induction events generalizing sessions with
  | nil => exact within
  | cons event events ih =>
    obtain ⟨first, rest⟩ := List.forall_mem_cons.mp named
    exact ih rest (within.step first)

end ServerSessions

/-- For a user and sessions with names, room is made as it should be, whatever the sessions,
the time and the limits; and no run of the handlers leaves the limits. -/
theorem session_slots_kept :
    (∀ (sessions : ServerSessions) (userID : String) (now ttl : Int)
      (perUserLimit globalLimit : Nat), sessions.Named → userID ≠ "" → 1 ≤ perUserLimit →
      1 ≤ globalLimit →
      ∃ old ofUser ofAll rest,
        sessions.prepareMCPSessionSlot userID now ttl perUserLimit globalLimit =
          some (old.map (·.id), ofUser.map (·.id), ofAll.map (·.id), rest) ∧
        ServerSessions.SlotMade userID now ttl perUserLimit globalLimit sessions old ofUser ofAll
          rest ∧
        ∀ newSID,
          ServerSessions.countMCPSessionsForUser userID (rest.put ⟨newSID, userID, now⟩) ≤
            perUserLimit ∧
          (rest.put ⟨newSID, userID, now⟩).rows.length ≤ globalLimit) ∧
    (∀ (limits : SessionLimits) (events : List SessionEvent), (∀ event ∈ events, event.Named) →
      let reached := runFrom (ServerSessions.step limits) .empty events
      (∀ userID, reached.countMCPSessionsForUser userID ≤ limits.perUser) ∧
        reached.rows.length ≤ limits.all) := by
  constructor
  · intro sessions userID now ttl perUserLimit globalLimit named user perUser global
    obtain ⟨old, ofUser, ofAll, rest, prepared, -, made⟩ :=
      ServerSessions.prepare_slotMade now ttl named user perUser global
    exact ⟨old, ofUser, ofAll, rest, prepared, made, made.filled⟩
  · intro limits events named reached
    have within := ServerSessions.withinLimits_run named (ServerSessions.withinLimits_empty limits)
    exact ⟨within.perUser, within.all⟩

/-- A session that has expired, two of one user and one of another. -/
def fourSessions : ServerSessions :=
  { rows := [⟨"expired", "one", 0⟩, ⟨"one-old", "one", 28⟩, ⟨"one-new", "one", 30⟩,
      ⟨"two-old", "two", 27⟩]
    unique := by decide }

def twoSlots : SessionLimits := ⟨30, 2, 2, by decide⟩

theorem session_slots_kept_four :
    (∃ old ofUser ofAll rest, fourSessions.prepareMCPSessionSlot "one" 31 30 2 2 =
        some (old.map (·.id), ofUser.map (·.id), ofAll.map (·.id), rest) ∧
      ServerSessions.SlotMade "one" 31 30 2 2 fourSessions old ofUser ofAll rest) ∧
    (runFrom (ServerSessions.step twoSlots) .empty
      [.initializeSession "one" "s1" 1, .initializeSession "two" "s2" 2, .touch "s1" "one" 3,
        .initializeSession "one" "s3" 4, .sweep 40]).rows.length ≤ 2 := by
  constructor
  · obtain ⟨old, ofUser, ofAll, rest, prepared, made, -⟩ :=
      session_slots_kept.1 fourSessions "one" 31 30 2 2 (by decide) (by decide) (by decide)
        (by decide)
    exact ⟨old, ofUser, ofAll, rest, prepared, made⟩
  · exact (session_slots_kept.2 twoSlots _ (by decide)).2

/-- With an empty user, the sessions of others go in the phase of the user; and a session
without an identifier does not go at all. -/
theorem session_slots_need_names :
    (ServerSessions.prepareMCPSessionSlot "" 10 30 1 9
      ⟨[⟨"s1", "", 5⟩, ⟨"s2", "bob", 1⟩], by decide⟩).map (·.2.1) = some ["s2", "s1"] ∧
    ((ServerSessions.step ⟨30, 1, 9, by decide⟩ ⟨[⟨"", "ann", 5⟩], by decide⟩
      (.initializeSession "ann" "s1" 10)).countMCPSessionsForUser "ann") = 2 := by
  decide +kernel

end AcemcpRelay
