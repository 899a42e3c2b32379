import AcemcpRelay.SSEStreams

/-!
# Event streams and their successors

A stream that is closed, or that some goroutine is about to close, is no longer
in the registry, and no step puts it back: registration stores a new stream
only. So every stream in the registry is open and the latest of its session,
and closing what was replaced cannot touch its successor. A publisher, though,
keeps the stream it has looked up. If that stream is closed before the
`select`, a free place in its buffer is as ready as its `done`, and the
publisher may report a delivery nobody will read.
-/
namespace AcemcpRelay

open Store Wire

namespace StreamState

variable {s : StreamState}

/-- The stream has been registered and has left the registry for good. -/
def Gone (s : StreamState) (stream : Nat) : Prop :=
  stream < s.registered.length ∧ ∀ sessionID, s.streams.get sessionID ≠ some stream

/-- What a goroutine has read is still true. -/
def TaskOK (s : StreamState) : StreamTask → Prop
  | .idle => True
  | .closing stream => s.Gone stream
  | .publishing sessionID stream _ => (sessionID, stream) ∈ s.registered
  | .overflowed sessionID stream => (sessionID, stream) ∈ s.registered

structure Inv (s : StreamState) : Prop where
  numbered : ∀ entry ∈ s.registered, entry.2 < s.registered.length
  owned : ∀ first second stream, (first, stream) ∈ s.registered → (second, stream) ∈ s.registered →
    first = second
  current : ∀ sessionID stream, s.streams.get sessionID = some stream →
    s.latest sessionID = some stream
  closed : ∀ stream ∈ s.closed, s.Gone stream
  tasks : ∀ goroutine, s.TaskOK (s.tasks goroutine)

theorem inv_empty : Inv empty where
  numbered := by simp [empty]
  owned := by simp [empty]
  current := by
    intro sessionID stream found
    exact absurd (GoMap.get_eq_some.mp found) List.not_mem_nil
  closed := by simp [empty]
  tasks := fun _ => trivial

theorem mem_of_latest {sessionID : String} {stream : Nat}
    (found : s.latest sessionID = some stream) : (sessionID, stream) ∈ s.registered := by
  obtain ⟨⟨name, number⟩, listed, rfl⟩ := Option.map_eq_some_iff.mp found
  have same : name = sessionID := by simpa using List.find?_some listed
  exact same ▸ List.mem_of_find?_eq_some listed

/-- A stream in the registry was registered under its session and no other. -/
theorem Inv.session_unique (inv : s.Inv) {sessionID other : String} {stream : Nat}
    (found : s.streams.get sessionID = some stream) (listed : (other, stream) ∈ s.registered) :
    other = sessionID :=
  inv.owned other sessionID stream listed (mem_of_latest (inv.current sessionID stream found))

/-! ## Parts of steps -/

theorem TaskOK.mono {t : StreamState} {task : StreamTask} (ok : s.TaskOK task)
    (more : s.registered ⊆ t.registered) (gone : ∀ stream, s.Gone stream → t.Gone stream) :
    t.TaskOK task := by
  cases task with
  | idle => trivial
  | closing stream => exact gone stream ok
  | publishing sessionID stream message => exact more ok
  | overflowed sessionID stream => exact more ok

theorem Inv.setTask (inv : s.Inv) (goroutine : Nat) {task : StreamTask} (ok : s.TaskOK task) :
    (s.setTask goroutine task).Inv where
  numbered := inv.numbered
  owned := inv.owned
  current := inv.current
  closed := inv.closed
  tasks := by
    intro other
    have kept : s.TaskOK ((s.setTask goroutine task).tasks other) := by
      by_cases same : other = goroutine
      · simpa [StreamState.setTask, same] using ok
      · simpa [StreamState.setTask, same] using inv.tasks other
    exact kept.mono (List.Subset.refl _) fun _ was => was

/-- Taking entries out of the registry. -/
theorem Inv.shrink (inv : s.Inv) (rest : GoMap Nat)
    (less : ∀ sessionID stream, rest.get sessionID = some stream →
      s.streams.get sessionID = some stream) :
    Inv { s with streams := rest } := by
  have gone (stream : Nat) (was : s.Gone stream) : Gone { s with streams := rest } stream :=
    ⟨was.1, fun sessionID found => was.2 sessionID (less sessionID stream found)⟩
  exact {
    numbered := inv.numbered
    owned := inv.owned
    current := fun sessionID stream found => inv.current sessionID stream (less _ _ found)
    closed := fun stream mem => gone stream (inv.closed stream mem)
    tasks := fun goroutine => (inv.tasks goroutine).mono (List.Subset.refl _) gone }

theorem get_delete_le {map : GoMap Nat} {removed sessionID : String} {stream : Nat}
    (found : GoMap.get (map.delete (·.1 == removed)) sessionID = some stream) :
    sessionID ≠ removed ∧ map.get sessionID = some stream := by
  by_cases same : sessionID = removed
  · rw [same, GoMap.get_delete_self] at found
    cases found
  · exact ⟨same, GoMap.get_delete_of_ne same ▸ found⟩

theorem Inv.closeNext (inv : s.Inv) (goroutine : Nat) {stream : Option Nat}
    (gone : ∀ found ∈ stream, s.Gone found) : (s.closeNext goroutine stream).Inv := by
  cases stream with
  | none => exact inv
  | some found => exact inv.setTask goroutine (gone found rfl)

/-! ## Steps -/

theorem latest_register (sessionID other : String) (streams : GoMap Nat) :
    latest { s with
      streams := streams
      registered := (sessionID, s.registered.length) :: s.registered } other =
      if sessionID = other then some s.registered.length else s.latest other := by
  by_cases same : sessionID = other
  · simp [latest, same]
  · simp [latest, same]

/-- The state in which `registerBlock` leaves the registry. -/
theorem Inv.stored (inv : s.Inv) (sessionID : String) :
    Inv { s with
      streams := s.streams.put (sessionID, s.registered.length)
      registered := (sessionID, s.registered.length) :: s.registered } := by
  have fresh : ∀ entry ∈ s.registered, entry.2 ≠ s.registered.length :=
    fun entry listed => Nat.ne_of_lt (inv.numbered entry listed)
  have gone (stream : Nat) (was : s.Gone stream) : Gone { s with
      streams := s.streams.put (sessionID, s.registered.length)
      registered := (sessionID, s.registered.length) :: s.registered } stream := by
    refine ⟨Nat.lt_succ_of_lt was.1, fun other present => ?_⟩
    by_cases same : other = sessionID
    · subst same
      rw [GoMap.get_put_self] at present
      exact absurd (Option.some.inj present) (Nat.ne_of_gt was.1)
    · rw [GoMap.get_put_of_ne same] at present
      exact was.2 other present
  constructor
  · intro entry listed
    rcases List.mem_cons.mp listed with rfl | listed
    · exact Nat.lt_succ_self _
    · exact Nat.lt_succ_of_lt (inv.numbered entry listed)
  · intro first second stream one two
    rcases List.mem_cons.mp one with now | one <;> rcases List.mem_cons.mp two with also | two
    · exact (congrArg Prod.fst now).trans (congrArg Prod.fst also).symm
    · exact absurd (congrArg Prod.snd now) (fresh (second, stream) two)
    · exact absurd (congrArg Prod.snd also) (fresh (first, stream) one)
    · exact inv.owned first second stream one two
  · intro other stream found
    rw [latest_register]
    by_cases same : sessionID = other
    · subst same
      rw [GoMap.get_put_self] at found
      rw [if_pos rfl, found]
    · rw [GoMap.get_put_of_ne (Ne.symm same)] at found
      rw [if_neg same, inv.current other stream found]
  · exact fun stream mem => gone stream (inv.closed stream mem)
  · exact fun goroutine => (inv.tasks goroutine).mono (List.subset_cons_self _ _) gone

theorem Inv.registerBlock (inv : s.Inv) (goroutine : Nat) (sessionID : String) :
    (s.registerBlock goroutine sessionID).Inv := by
  refine (inv.stored sessionID).closeNext goroutine fun previous found => ?_
  -- the stream that was replaced was registered under this session only
  have listed := mem_of_latest (inv.current sessionID previous found)
  have old : previous < s.registered.length := inv.numbered _ listed
  refine ⟨Nat.lt_succ_of_lt old, fun other present => ?_⟩
  by_cases same : other = sessionID
  · subst same
    rw [GoMap.get_put_self] at present
    exact absurd (Option.some.inj present) (Nat.ne_of_gt old)
  · rw [GoMap.get_put_of_ne same] at present
    exact same (inv.session_unique present listed).symm

theorem Inv.unregisterBlock (inv : s.Inv) (goroutine : Nat) {sessionID : String} {stream : Nat}
    (listed : (sessionID, stream) ∈ s.registered) :
    (s.unregisterBlock goroutine sessionID stream).Inv := by
  -- whether or not the stream was current, the registry has no other entry with it
  have less (other : String) (found : Nat)
      (present : GoMap.get (if s.streams.get sessionID = some stream
        then s.streams.delete (·.1 == sessionID) else s.streams) other = some found) :
      s.streams.get other = some found ∧ found ≠ stream := by
    split at present
    next current =>
      obtain ⟨different, before⟩ := get_delete_le present
      refine ⟨before, fun same => different ?_⟩
      exact (inv.session_unique (same ▸ before) listed).symm
    next other_ =>
      refine ⟨present, fun same => other_ ?_⟩
      rw [inv.session_unique (same ▸ present) listed]
      exact same ▸ present
  have smaller := inv.shrink _ fun other found present => (less other found present).1
  exact smaller.setTask goroutine
    ⟨inv.numbered _ listed, fun other present => (less other stream present).2 rfl⟩

theorem Inv.closeSessionBlock (inv : s.Inv) (goroutine : Nat) (sessionID : String) :
    (s.closeSessionBlock goroutine sessionID).Inv := by
  have smaller := inv.shrink (s.streams.delete (·.1 == sessionID))
    fun _ _ found => (get_delete_le found).2
  refine smaller.closeNext goroutine fun stream found => ?_
  have listed := mem_of_latest (inv.current sessionID stream found)
  refine ⟨inv.numbered _ listed, fun other present => ?_⟩
  obtain ⟨different, before⟩ := get_delete_le present
  exact different (inv.session_unique before listed).symm

theorem Inv.publishBlock (inv : s.Inv) (goroutine : Nat) (sessionID : String) (payload : Bytes) :
    (s.publishBlock goroutine sessionID payload).Inv := by
  unfold StreamState.publishBlock
  split
  · exact inv
  · split
    · exact inv
    next stream found =>
      exact inv.setTask goroutine (mem_of_latest (inv.current sessionID stream found))

theorem Inv.selectCase (inv : s.Inv) (goroutine : Nat) {sessionID : String} {stream : Nat}
    (listed : (sessionID, stream) ∈ s.registered) (message : Bytes) (taken : SelectCase) :
    (s.selectCase goroutine sessionID stream message taken).Inv := by
  have same (queues : Nat → List Bytes) (accepted : List (Nat × Bool)) :
      Inv { s with queues := queues, accepted := accepted } :=
    ⟨inv.numbered, inv.owned, inv.current, inv.closed,
      fun other => (inv.tasks other).mono (List.Subset.refl _) fun _ was => was⟩
  unfold StreamState.selectCase
  split
  · exact (same _ _).setTask goroutine trivial
  · split
    · exact inv.setTask goroutine trivial
    · exact inv.setTask goroutine listed

theorem Inv.step (inv : s.Inv) (event : StreamEvent) : (s.step event).Inv := by
  cases event with
  | register g sessionID =>
    simp only [StreamState.step]
    split
    · exact inv.registerBlock g sessionID
    · exact inv
  | unregister g sessionID stream =>
    simp only [StreamState.step]
    split
    next ready => exact inv.unregisterBlock g ready.2
    · exact inv
  | closeSession g sessionID =>
    simp only [StreamState.step]
    split
    · exact inv.closeSessionBlock g sessionID
    · exact inv
  | close g =>
    have ok := inv.tasks g
    simp only [StreamState.step]
    split
    next stream task =>
      rw [task] at ok
      have marked : Inv { s with closed := stream :: s.closed } :=
        ⟨inv.numbered, inv.owned, inv.current, List.forall_mem_cons.mpr ⟨ok, inv.closed⟩,
          fun other => (inv.tasks other).mono (List.Subset.refl _) fun _ was => was⟩
      exact marked.setTask g trivial
    · exact inv
  | publish g sessionID payload =>
    simp only [StreamState.step]
    split
    · exact inv.publishBlock g sessionID payload
    · exact inv
  | select g taken =>
    have ok := inv.tasks g
    simp only [StreamState.step]
    split
    next sessionID stream message task =>
      rw [task] at ok
      exact inv.selectCase g ok message taken
    · exact inv
  | unregisterSlow g =>
    have ok := inv.tasks g
    simp only [StreamState.step]
    split
    next sessionID stream task =>
      rw [task] at ok
      exact inv.unregisterBlock g ok
    · exact inv
  | receive stream =>
    exact ⟨inv.numbered, inv.owned, inv.current, inv.closed,
      fun other => (inv.tasks other).mono (List.Subset.refl _) fun _ was => was⟩

/-! ## What a step can do to publishers -/

theorem setTask_tasks (goroutine other : Nat) (task : StreamTask) :
    (s.setTask goroutine task).tasks other = if other = goroutine then task else s.tasks other :=
  Function.update_apply ..

/-- A stream that a publisher holds after a block was held before it, or was just looked up. -/
theorem setTask_publishing {goroutine other : Nat} {task : StreamTask} {sessionID : String}
    {stream : Nat} {message : Bytes} (quiet : ∀ id held m, task ≠ .publishing id held m)
    (after : (s.setTask goroutine task).tasks other = .publishing sessionID stream message) :
    s.tasks other = .publishing sessionID stream message := by
  rw [setTask_tasks] at after
  split at after
  · exact absurd after (quiet _ _ _)
  · exact after

theorem closeNext_publishing {goroutine other : Nat} {found : Option Nat} {sessionID : String}
    {stream : Nat} {message : Bytes}
    (after : (s.closeNext goroutine found).tasks other = .publishing sessionID stream message) :
    s.tasks other = .publishing sessionID stream message := by
  cases found with
  | none => exact after
  | some previous => exact setTask_publishing (by simp) after

theorem step_publishing {event : StreamEvent} {other : Nat} {sessionID : String} {stream : Nat}
    {message : Bytes} (after : (s.step event).tasks other = .publishing sessionID stream message) :
    s.tasks other = .publishing sessionID stream message ∨
      s.streams.get sessionID = some stream := by
  cases event with
  | publish g id payload =>
    simp only [step, publishBlock] at after
    split at after
    · split at after
      · exact .inl after
      · split at after
        · exact .inl after
        next found present =>
          rw [setTask_tasks] at after
          split at after
          · cases after
            exact .inr present
          · exact .inl after
    · exact .inl after
  | register g id =>
    simp only [step, registerBlock] at after
    split at after
    · have before := closeNext_publishing after
      exact .inl before
    · exact .inl after
  | unregister g id ended =>
    simp only [step, unregisterBlock] at after
    split at after
    · exact .inl (setTask_publishing (by simp) after)
    · exact .inl after
  | closeSession g id =>
    simp only [step, closeSessionBlock] at after
    split at after
    · have before := closeNext_publishing after
      exact .inl before
    · exact .inl after
  | close g =>
    simp only [step] at after
    split at after
    · exact .inl (setTask_publishing (by simp) after)
    · exact .inl after
  | select g taken =>
    simp only [step, selectCase] at after
    split at after
    · split at after
      · exact .inl (setTask_publishing (by simp) after)
      · split at after <;> exact .inl (setTask_publishing (by simp) after)
    · exact .inl after
  | unregisterSlow g =>
    simp only [step, unregisterBlock] at after
    split at after
    · exact .inl (setTask_publishing (by simp) after)
    · exact .inl after
  | receive taken => exact .inl after

@[simp] theorem setTask_closed (goroutine : Nat) (task : StreamTask) :
    (s.setTask goroutine task).closed = s.closed := rfl

@[simp] theorem setTask_accepted (goroutine : Nat) (task : StreamTask) :
    (s.setTask goroutine task).accepted = s.accepted := rfl

@[simp] theorem closeNext_closed (goroutine : Nat) (found : Option Nat) :
    (s.closeNext goroutine found).closed = s.closed := by
  cases found <;> rfl

@[simp] theorem closeNext_accepted (goroutine : Nat) (found : Option Nat) :
    (s.closeNext goroutine found).accepted = s.accepted := by
  cases found <;> rfl

/-- Only `close` closes, and only the stream its goroutine has taken. -/
theorem step_closed {event : StreamEvent} {stream : Nat} (after : stream ∈ (s.step event).closed) :
    stream ∈ s.closed ∨ ∃ g, event = .close g ∧ s.tasks g = .closing stream := by
  cases event with
  | close g =>
    simp only [step] at after
    split at after
    next found task =>
      rcases List.mem_cons.mp after with rfl | before
      · exact .inr ⟨g, rfl, task⟩
      · exact .inl before
    · exact .inl after
  | select g taken =>
    left
    simp only [step, selectCase] at after
    repeat' split at after
    all_goals exact after
  | publish g id payload =>
    left
    simp only [step, publishBlock] at after
    repeat' split at after
    all_goals exact after
  | register g id | unregister g id ended | closeSession g id | unregisterSlow g =>
    left
    simp only [step, registerBlock, unregisterBlock, closeSessionBlock] at after
    split at after
    · simpa using after
    · exact after
  | receive taken => exact .inl after

/-- Only a `select` reports a delivery, and it records whether the stream was open. -/
theorem step_accepted {event : StreamEvent} {entry : Nat × Bool}
    (after : entry ∈ (s.step event).accepted) :
    entry ∈ s.accepted ∨ ∃ g sessionID message,
      s.tasks g = .publishing sessionID entry.1 message ∧ entry.2 = decide (entry.1 ∉ s.closed) := by
  cases event with
  | select g taken =>
    simp only [step, selectCase] at after
    split at after
    next id stream message task =>
      split at after
      · rcases List.mem_cons.mp after with rfl | before
        · exact .inr ⟨g, id, message, task, rfl⟩
        · exact .inl before
      · left
        split at after <;> exact after
    · exact .inl after
  | publish g id payload =>
    left
    simp only [step, publishBlock] at after
    repeat' split at after
    all_goals exact after
  | register g id | unregister g id ended | closeSession g id | unregisterSlow g | close g =>
    left
    simp only [step, registerBlock, unregisterBlock, closeSessionBlock] at after
    split at after
    · simpa using after
    · exact after
  | receive taken => exact .inl after

/-! ## Runs -/

/-- Every stream in the registry is open and the latest of its session. -/
def Current (s : StreamState) : Prop :=
  ∀ sessionID stream, s.streams.get sessionID = some stream →
    stream ∉ s.closed ∧ s.latest sessionID = some stream

theorem Inv.isCurrent (inv : s.Inv) : s.Current := by
  intro sessionID stream found
  exact ⟨fun mem => (inv.closed stream mem).2 sessionID found, inv.current sessionID stream found⟩

/-- The step replaces the session's stream or ends this very stream. -/
def Ends (s : StreamState) (sessionID : String) (stream : Nat) : StreamEvent → Prop
  | .register _ id => id = sessionID
  | .closeSession _ id => id = sessionID
  | .unregister _ _ ended => ended = stream
  | .unregisterSlow g => ∃ id, s.tasks g = .overflowed id stream
  | _ => False

theorem closeNext_streams (goroutine : Nat) (found : Option Nat) :
    (s.closeNext goroutine found).streams = s.streams := by
  cases found <;> rfl

theorem unregisterBlock_streams {goroutine ended stream : Nat} {id sessionID : String}
    (found : s.streams.get sessionID = some stream) (different : ended ≠ stream) :
    (s.unregisterBlock goroutine id ended).streams.get sessionID = some stream := by
  have kept : GoMap.get (if s.streams.get id = some ended then s.streams.delete (·.1 == id)
      else s.streams) sessionID = some stream := by
    split
    next current =>
      have apart : sessionID ≠ id := by
        rintro rfl
        exact different (Option.some.inj (current.symm.trans found))
      rw [GoMap.get_delete_of_ne apart, found]
    · exact found
  exact kept

/-- Ending another stream leaves this one in the registry. -/
theorem step_streams {sessionID : String} {stream : Nat} {event : StreamEvent}
    (found : s.streams.get sessionID = some stream) (other : ¬ s.Ends sessionID stream event) :
    (s.step event).streams.get sessionID = some stream := by
  cases event with
  | register g id =>
    simp only [step, registerBlock]
    split
    · rw [closeNext_streams, GoMap.get_put_of_ne (Ne.symm other), found]
    · exact found
  | closeSession g id =>
    simp only [step, closeSessionBlock]
    split
    · rw [closeNext_streams, GoMap.get_delete_of_ne (Ne.symm other), found]
    · exact found
  | unregister g id ended =>
    simp only [step]
    split
    · exact unregisterBlock_streams found other
    · exact found
  | unregisterSlow g =>
    simp only [step]
    split
    next id ended task =>
      exact unregisterBlock_streams found fun same => other ⟨id, same ▸ task⟩
    · exact found
  | close g =>
    simp only [step]
    split <;> exact found
  | publish g id payload =>
    simp only [step, publishBlock]
    repeat' split
    all_goals exact found
  | select g taken =>
    simp only [step, selectCase]
    repeat' split
    all_goals exact found
  | receive taken => exact found

/-- No stream is closed while a publisher is between its lookup of it and its `select`. -/
def Undisturbed (s : StreamState) : StreamEvent → Prop
  | .close g => ∀ stream, s.tasks g = .closing stream →
      ∀ other sessionID message, s.tasks other ≠ .publishing sessionID stream message
  | _ => True

/-- The publishers hold open streams, and every delivery reported was to an open one. -/
structure Delivered (s : StreamState) : Prop where
  inv : s.Inv
  held : ∀ g sessionID stream message, s.tasks g = .publishing sessionID stream message →
    stream ∉ s.closed
  opened : ∀ entry ∈ s.accepted, entry.2 = true

theorem Delivered.step (ok : s.Delivered) (event : StreamEvent) (quiet : s.Undisturbed event) :
    (s.step event).Delivered where
  inv := ok.inv.step event
  held := by
    intro g sessionID stream message after mem
    rcases step_publishing after with before | present
    · rcases step_closed mem with closed | ⟨closer, rfl, task⟩
      · exact ok.held g sessionID stream message before closed
      · exact quiet stream task g sessionID message before
    · rcases step_closed mem with closed | ⟨closer, -, task⟩
      · exact (ok.inv.closed stream closed).2 sessionID present
      · -- a stream that is about to be closed is not in the registry
        have gone := ok.inv.tasks closer
        rw [task] at gone
        exact gone.2 sessionID present
  opened := by
    intro entry after
    rcases step_accepted after with before | ⟨g, sessionID, message, task, flag⟩
    · exact ok.opened entry before
    · rw [flag]
      exact decide_eq_true (ok.held g sessionID entry.1 message task)

theorem delivered_empty : Delivered empty where
  inv := inv_empty
  held := fun _ _ _ _ task => by simp [empty] at task
  opened := by simp [empty]

end StreamState

/-- In every state of every interleaving the registry holds open streams only, each the latest
of its session, and a step that does not replace or end a stream leaves it registered and
open, whatever older streams it ends. When no stream is closed between a publisher's lookup and
its `select`, a publisher reports a delivery only to a stream that is open at that moment. -/
theorem stream_registry_safe (events : List StreamEvent) :
    Throughout StreamState.step StreamState.Current .empty events ∧
    (∀ sessionID stream event,
      (runFrom StreamState.step .empty events).streams.get sessionID = some stream →
      ¬ (runFrom StreamState.step .empty events).Ends sessionID stream event →
      ((runFrom StreamState.step .empty events).step event).streams.get sessionID = some stream ∧
        stream ∉ ((runFrom StreamState.step .empty events).step event).closed) ∧
    (Along StreamState.step StreamState.Undisturbed .empty events →
      ∀ entry ∈ (runFrom StreamState.step .empty events).accepted, entry.2 = true) := by
  refine ⟨?_, ?_, ?_⟩
  · have all : Along StreamState.step (fun _ _ => True) .empty events :=
      along_of_forall fun _ _ => trivial
    exact throughout_of_along (fun _ event inv _ => inv.step event)
      (fun _ inv => inv.isCurrent) StreamState.inv_empty events all
  · intro sessionID stream event found other
    have inv : (runFrom StreamState.step .empty events).Inv :=
      invariant_run (fun _ event inv => inv.step event) StreamState.inv_empty events
    have kept := StreamState.step_streams found other
    exact ⟨kept, ((inv.step event).isCurrent sessionID stream kept).1⟩
  · intro quiet
    have delivered : (runFrom StreamState.step .empty events).Delivered :=
      invariant_along (fun _ event ok quiet => ok.step event quiet) StreamState.delivered_empty
        events quiet
    exact delivered.opened

/-- A message is published and a second connection replaces the first; its old stream is closed
after the publisher is done. -/
theorem stream_registry_safe_replaced :
    let events : List StreamEvent := [.register 0 "s", .publish 1 "s" (ascii "m"),
      .register 2 "s", .select 1 .send, .close 2]
    Along StreamState.step StreamState.Undisturbed .empty events ∧
      (runFrom StreamState.step .empty events).accepted = [(0, true)] ∧
      ∀ entry ∈ (runFrom StreamState.step .empty events).accepted, entry.2 = true := by
  intro events
  have quiet : Along StreamState.step StreamState.Undisturbed .empty events := by
    refine ⟨trivial, trivial, trivial, trivial, ?_, trivial⟩
    intro stream _ other sessionID message
    have tasks : (runFrom StreamState.step .empty (events.take 4)).tasks =
        Function.update (Function.update (Function.update (fun _ => .idle) 1
          (.publishing "s" 0 (ascii "m"))) 2 (.closing 0)) 1 .idle := by
      rfl
    intro held
    have held' := (congrFun tasks other).symm.trans held
    simp only [Function.update_apply] at held'
    split at held'
    · cases held'
    · split at held' <;> cases held'
  exact ⟨quiet, by decide +kernel, (stream_registry_safe events).2.2 quiet⟩

/-- The session ends between the lookup and the `select`: the publisher takes the free place in
the buffer of a closed stream and reports a delivery. -/
theorem delivery_to_closed_stream :
    (runFrom StreamState.step .empty [.register 0 "s", .publish 1 "s" (ascii "m"),
      .closeSession 2 "s", .close 2, .select 1 .send]).accepted = [(0, false)] := by
  decide +kernel

end AcemcpRelay
