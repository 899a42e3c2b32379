import AcemcpRelay.EventStream

/-!
# Framing

A reader of the event-stream grammar finds in the output of the relay exactly
the payloads, with their line ends unified, and the relay's own comments. The
payload is cut into lines before any of its bytes is written, so each line of
the output starts with `data: ` and no byte of a payload can end a line.
`extractSSEData` keeps only the last line of the last payload.
-/
namespace AcemcpRelay

open Wire

/-! ## Line ends -/

/-- CRLF and CR replaced by LF, read off in one pass. -/
def unified : Bytes → Bytes
  | [] => []
  | 13 :: 10 :: rest => lf :: unified rest
  | 13 :: rest => lf :: unified rest
  | b :: rest => b :: unified rest

theorem replaceAll_cr (s : Bytes) :
    replaceAll [cr] [lf] s = s.map fun b => if b = cr then lf else b := by
  unfold replaceAll
  induction s with
  | nil => rfl
  | cons b s ih =>
    by_cases same : b = cr
    · simp [replaceAllFrom, same, ih]
    · simp [replaceAllFrom, same, ih, Ne.symm same]

theorem unifyLineEnds_eq (payload : Bytes) : unifyLineEnds payload = unified payload := by
  unfold unifyLineEnds
  rw [replaceAll_cr]
  unfold replaceAll
  fun_induction unified payload with
  | case1 => rfl
  | case2 rest ih => simpa [replaceAllFrom, cr, lf] using ih
  | case3 rest lone ih =>
    -- no LF follows, so the pass over CRLF keeps the CR and the next pass replaces it
    have kept : ¬ [cr, lf] <+: 13 :: rest := by
      intro start
      obtain ⟨tail, rfl⟩ := (List.cons_prefix_cons.mp start).2
      exact lone tail rfl
    rw [replaceAllFrom_keeps [lf] kept]
    simpa [cr] using ih
  | case4 b rest _ other ih =>
    have different : b ≠ cr := other
    have kept : ¬ [cr, lf] <+: b :: rest := by
      intro start
      exact different (List.cons_prefix_cons.mp start).1.symm
    rw [replaceAllFrom_keeps [lf] kept]
    simpa [different] using ih

theorem cr_notMem_unifyLineEnds (payload : Bytes) : cr ∉ unifyLineEnds payload := by
  rw [unifyLineEnds, replaceAll_cr]
  intro mem
  obtain ⟨b, -, image⟩ := List.mem_map.mp mem
  split at image
  · exact absurd image (by decide)
  next other => exact other image

/-- The lines of a payload have no line end in them. -/
theorem oneLine_of_mem (payload line : Bytes) (mem : line ∈ (unifyLineEnds payload).splitOn lf) :
    OneLine line := by
  obtain ⟨noLf, part⟩ := part_of_mem_splitOn mem
  exact ⟨noLf, fun mem => cr_notMem_unifyLineEnds payload (part mem)⟩

/-! ## Reading the output -/

/-- What a reader should find of one round. -/
def Chunk.items : Chunk → List Item
  | .payload bytes => [.event [] (unified bytes) []]
  | .keepalive => [.comment (ascii " keepalive")]

/-- The lines of one round. -/
def Chunk.lines : Chunk → List Bytes
  | .payload bytes => ((unifyLineEnds bytes).splitOn lf).map (ascii "data: " ++ ·) ++ [[]]
  | .keepalive => [ascii ": keepalive", []]

theorem Chunk.oneLine_lines (chunk : Chunk) (line : Bytes) (mem : line ∈ chunk.lines) :
    OneLine line := by
  cases chunk with
  | payload bytes =>
    rcases List.mem_append.mp mem with mem | mem
    · obtain ⟨part, isPart, rfl⟩ := List.mem_map.mp mem
      exact OneLine.append (by decide) (oneLine_of_mem bytes part isPart)
    · obtain rfl := List.mem_singleton.mp mem
      decide
  | keepalive =>
    have both : ∀ line ∈ Chunk.keepalive.lines, OneLine line := by decide
    exact both line mem

/-- A round writes its lines, each ended by LF. -/
theorem Chunk.bytes_eq (chunk : Chunk) : chunk.bytes = chunk.lines.flatMap (· ++ [lf]) := by
  cases chunk with
  | payload bytes =>
    simp [Chunk.bytes, writeMCPSSEData, frameSSEData, LineEnd.before, Chunk.lines, List.flatMap_map]
  | keepalive => decide

/-- Reading the lines of a round between two events gives its items and leaves nothing. -/
theorem Chunk.run_lines (chunk : Chunk) :
    Reader.start.run chunk.lines = (Reader.start, chunk.items) := by
  cases chunk with
  | keepalive => decide
  | payload bytes =>
    have some : (unifyLineEnds bytes).splitOn lf ≠ [] := List.splitOn_ne_nil lf _
    have joined : (((unifyLineEnds bytes).splitOn lf).flatMap (· ++ [lf])).dropLast =
        unified bytes := by
      rw [dropLast_flatMap_append lf some, List.intercalate_splitOn, unifyLineEnds_eq]
    have filled : ((unifyLineEnds bytes).splitOn lf).flatMap (· ++ [lf]) ≠ [] := by
      obtain ⟨first, rest, parts⟩ := List.exists_cons_of_ne_nil some
      simp [parts]
    rw [Chunk.lines, Reader.run_append, Reader.run_data]
    simp [Reader.run, Reader.line, Reader.dispatch, Reader.start, filled, joined, Chunk.items]

/-- Reading rounds one after another. -/
theorem read_chunks (chunks : List Chunk) :
    Reader.start.run (chunks.flatMap Chunk.lines) = (Reader.start, chunks.flatMap Chunk.items) := by
  induction chunks with
  | nil => rfl
  | cons chunk chunks ih =>
    rw [List.flatMap_cons, Reader.run_append, chunk.run_lines, ih, List.flatMap_cons]

theorem bytes_flatMap (chunks : List Chunk) :
    chunks.flatMap Chunk.bytes = (chunks.flatMap Chunk.lines).flatMap (· ++ [lf]) := by
  rw [List.flatMap_assoc]
  exact List.flatMap_congr fun chunk _ => chunk.bytes_eq

/-- For all payloads, with comments between them wherever they fall, a reader of the stream
finds one event per payload, of no type and without an id, whose data is the payload with its
line ends unified, and the relay's comments; nothing is left in its buffers. This holds with
the first comment of `handleMCPGet` in front as well. -/
theorem framing_not_forged (chunks : List Chunk) :
    Reader.read (chunks.flatMap Chunk.bytes) = (Reader.start, chunks.flatMap Chunk.items) ∧
    Reader.read (handleMCPGetOutput chunks) =
      (Reader.start, .comment (ascii " connected") :: chunks.flatMap Chunk.items) := by
  have single : ∀ line ∈ chunks.flatMap Chunk.lines, OneLine line := by
    intro line mem
    obtain ⟨chunk, -, listed⟩ := List.mem_flatMap.mp mem
    exact chunk.oneLine_lines line listed
  constructor
  · rw [bytes_flatMap, Reader.read_flatMap _ single, read_chunks]
  · have greeting : writeMCPSSEComment (ascii "connected") =
        [ascii ": connected", []].flatMap (· ++ [lf]) := by decide
    have plain : ∀ line ∈ [ascii ": connected", []], OneLine line := by decide
    have greeted : Reader.start.run [ascii ": connected", []] =
        (Reader.start, [.comment (ascii " connected")]) := by decide
    rw [handleMCPGetOutput, greeting, bytes_flatMap, ← List.flatMap_append,
      Reader.read_flatMap _ (List.forall_mem_append.mpr ⟨plain, single⟩), Reader.run_append,
      greeted, read_chunks]
    rfl

/-! ## Extraction -/

/-- The lines of a frame, without their LF. -/
def frameLines (lineEnd : LineEnd) (payload : Bytes) : List Bytes :=
  ((unifyLineEnds payload).splitOn lf).map (fun line => ascii "data: " ++ line ++ lineEnd.before)
    ++ [lineEnd.before]

theorem frameSSEData_eq (lineEnd : LineEnd) (payload : Bytes) :
    frameSSEData lineEnd payload = (frameLines lineEnd payload).flatMap (· ++ [lf]) := by
  simp [frameSSEData, frameLines, List.flatMap_map]

theorem lf_notMem_frameLines (lineEnd : LineEnd) (payload line : Bytes)
    (mem : line ∈ frameLines lineEnd payload) : lf ∉ line := by
  have ends : lf ∉ lineEnd.before := by cases lineEnd <;> decide
  rcases List.mem_append.mp mem with mem | mem
  · obtain ⟨part, isPart, rfl⟩ := List.mem_map.mp mem
    have name : lf ∉ ascii "data: " := by decide
    simp only [List.mem_append, not_or]
    exact ⟨⟨name, (part_of_mem_splitOn isPart).1⟩, ends⟩
  · rwa [List.mem_singleton.mp mem]

theorem lastData_append (last : Option Bytes) (first second : List Bytes) :
    lastData last (first ++ second) = lastData (lastData last first) second := by
  induction first generalizing last with
  | nil => rfl
  | cons line first ih =>
    simp only [List.cons_append, lastData]
    split <;> exact ih _

theorem trimRightCR_append (line : Bytes) (lineEnd : LineEnd) (clean : cr ∉ line) :
    trimRightCR (line ++ lineEnd.before) = line := by
  have kept : line.reverse.dropWhile (· == cr) = line.reverse := by
    cases reversed : line.reverse with
    | nil => rfl
    | cons b rest =>
      have listed : b ∈ line := List.mem_reverse.mp (reversed ▸ List.mem_cons_self)
      have different : b ≠ cr := fun same => clean (same ▸ listed)
      exact List.dropWhile_cons_of_neg (by simpa using different)
  cases lineEnd with
  | lf => rw [LineEnd.before, List.append_nil, trimRightCR, kept, List.reverse_reverse]
  | crlf =>
    rw [LineEnd.before, trimRightCR, List.reverse_append, List.reverse_singleton,
      List.singleton_append, List.dropWhile_cons_of_pos (by simp), kept, List.reverse_reverse]

/-- A data line gives back its value under either line end. -/
theorem dataLine_append (line : Bytes) (lineEnd : LineEnd) (clean : cr ∉ line) :
    dataLine (ascii "data: " ++ line ++ lineEnd.before) = some line := by
  have whole : cr ∉ ascii "data: " ++ line := by
    simp only [List.mem_append, not_or]
    exact ⟨by decide, clean⟩
  have start : (ascii "data: ").isPrefixOf (ascii "data: " ++ line) = true :=
    List.isPrefixOf_iff_prefix.mpr (List.prefix_append _ _)
  rw [dataLine, trimRightCR_append _ lineEnd whole, if_pos start]
  rfl

/-- Of a frame only the last line is kept. -/
theorem lastData_frameLines (found : Option Bytes) (lineEnd : LineEnd) (payload : Bytes) :
    lastData found (frameLines lineEnd payload) =
      ((unifyLineEnds payload).splitOn lf).getLast? := by
  obtain ⟨init, line, parts⟩ : ∃ init line, (unifyLineEnds payload).splitOn lf = init ++ [line] :=
    ⟨_, _, (List.dropLast_append_getLast (List.splitOn_ne_nil lf _)).symm⟩
  have clean : cr ∉ line := (oneLine_of_mem payload line (by simp [parts])).2
  have blank : dataLine lineEnd.before = none := by cases lineEnd <;> decide
  rw [frameLines, lastData_append, parts, List.map_append, lastData_append]
  simp only [List.map_cons, List.map_nil, lastData, dataLine_append line lineEnd clean, blank,
    List.getLast?_append, List.getLast?_singleton, Option.some_or]

/-- What is extracted is the last line of the last payload. -/
theorem extractSSEData_frames (earlier : List (LineEnd × Bytes)) (lineEnd : LineEnd)
    (last : Bytes) :
    some (extractSSEData ((earlier ++ [(lineEnd, last)]).flatMap fun frame =>
      frameSSEData frame.1 frame.2)) = ((unifyLineEnds last).splitOn lf).getLast? := by
  -- all frames together are lines that each end with LF, and nothing follows the last one
  have whole : ((earlier ++ [(lineEnd, last)]).flatMap fun frame => frameSSEData frame.1 frame.2) =
      ((earlier.flatMap fun frame => frameLines frame.1 frame.2) ++
        frameLines lineEnd last).flatMap (· ++ [lf]) ++ [] := by
    simp [frameSSEData_eq, List.flatMap_assoc]
  have free : ∀ line ∈ (earlier.flatMap fun frame => frameLines frame.1 frame.2) ++
      frameLines lineEnd last, lf ∉ line := by
    intro line mem
    rcases List.mem_append.mp mem with mem | mem
    · obtain ⟨frame, -, listed⟩ := List.mem_flatMap.mp mem
      exact lf_notMem_frameLines _ _ line listed
    · exact lf_notMem_frameLines _ _ line mem
  have nothing : dataLine [] = none := by decide
  obtain ⟨line, found⟩ : ∃ line, ((unifyLineEnds last).splitOn lf).getLast? = some line :=
    ⟨_, List.getLast?_eq_some_getLast (List.splitOn_ne_nil lf _)⟩
  rw [extractSSEData, whole, splitOn_flatMap_append _ _ free, List.splitOn_nil, lastData_append,
    lastData_append, lastData_frameLines, found]
  simp only [lastData, nothing]

/-- Unifying line ends neither removes nor adds one. -/
theorem lf_mem_unified (payload : Bytes) : lf ∈ unified payload ↔ ¬ OneLine payload := by
  fun_induction unified payload with
  | case1 => decide
  | case2 rest ih => simp [OneLine, lf]
  | case3 rest lone ih => simp [OneLine, cr]
  | case4 b rest _ other ih =>
    have different : cr ≠ b := fun same => other same.symm
    simp only [OneLine, List.mem_cons, ih, different, false_or]
    tauto

/-- What is extracted is always the last line of the last payload, under either line end. So
the payload comes back, with its line ends unified, exactly when it is a single line. -/
theorem extraction_inverts_framing (earlier : List (LineEnd × Bytes)) (lineEnd : LineEnd)
    (last : Bytes) :
    let stream := (earlier ++ [(lineEnd, last)]).flatMap fun frame => frameSSEData frame.1 frame.2
    some (extractSSEData stream) = ((unified last).splitOn lf).getLast? ∧
      (extractSSEData stream = unified last ↔ OneLine last) := by
  intro stream
  have frames : some (extractSSEData stream) = ((unified last).splitOn lf).getLast? := by
    rw [← unifyLineEnds_eq]
    exact extractSSEData_frames earlier lineEnd last
  refine ⟨frames, ?_, ?_⟩
  · intro whole
    -- the last line has no LF, so a payload that is its own last line has none
    have listed : unified last ∈ (unified last).splitOn lf :=
      List.mem_of_getLast? (whole ▸ frames.symm)
    by_contra several
    exact (part_of_mem_splitOn listed).1 ((lf_mem_unified last).mpr several)
  · intro single
    have free : lf ∉ unified last := fun mem => (lf_mem_unified last).mp mem single
    have alone : (unified last).splitOn lf = [unified last] :=
      List.splitOn_eq_singleton_of_beq_eq_false fun b mem => by
        simpa using fun same : b = lf => free (same ▸ mem)
    rw [alone] at frames
    exact Option.some.inj frames

/-- A reply of two lines is cut to its second one. -/
theorem two_lines_cut :
    extractSSEData (writeMCPSSEData (ascii "a" ++ [lf] ++ ascii "b")) = ascii "b" ∧
    unified (ascii "a" ++ [lf] ++ ascii "b") = ascii "a" ++ [lf] ++ ascii "b" := by
  decide +kernel

end AcemcpRelay
