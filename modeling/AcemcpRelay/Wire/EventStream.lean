import AcemcpRelay.Wire.Bytes

/-!
# Event streams

The reader of `text/event-stream`: lines ended by LF, CR or CRLF, a field name
up to the first colon, one blank dropped in front of a value, data lines joined
by LF, and an event at each blank line that data lines precede. It reports the
comments, the fields without a meaning and the reconnection times as well, so
that a stream is described by everything that stands in it.
-/
namespace AcemcpRelay.Wire

def lf : UInt8 := 10
def cr : UInt8 := 13

/-- The lines of a text after what has been read of the first one. What no line end follows
is not a line. -/
def linesFrom (line : Bytes) : Bytes → List Bytes
  | [] => []
  | 10 :: rest => line :: linesFrom [] rest
  | 13 :: 10 :: rest => line :: linesFrom [] rest
  | 13 :: rest => line :: linesFrom [] rest
  | b :: rest => linesFrom (line ++ [b]) rest

/-- What a reader finds in a stream. -/
inductive Item where
  | event (type data lastEventId : Bytes)
  | comment (text : Bytes)
  | retry (digits : Bytes)
  | ignored (name value : Bytes)
  deriving DecidableEq, Repr

/-- The buffers of the reader. -/
structure Reader where
  data : Bytes
  eventType : Bytes
  lastEventId : Bytes
  deriving DecidableEq, Repr

namespace Reader

def start : Reader := ⟨[], [], []⟩

def field (r : Reader) (name value : Bytes) : Reader × List Item :=
  if name = ascii "data" then ({ r with data := r.data ++ value ++ [lf] }, [])
  else if name = ascii "event" then ({ r with eventType := value }, [])
  else if name = ascii "id" then
    (if 0 ∈ value then r else { r with lastEventId := value }, [])
  else if name = ascii "retry" then
    (r, if value.all fun b => 48 ≤ b && b ≤ 57 then [.retry value] else [])
  else (r, [.ignored name value])

/-- A blank line ends an event; without data there is none to report. -/
def dispatch (r : Reader) : Reader × List Item :=
  if r.data = [] then ({ r with eventType := [] }, [])
  else ({ r with data := [], eventType := [] },
    [.event r.eventType r.data.dropLast r.lastEventId])

/-- One blank in front of a value is dropped. -/
def valueOf : Bytes → Bytes
  | 32 :: value => value
  | value => value

def line (r : Reader) (text : Bytes) : Reader × List Item :=
  match text with
  | [] => r.dispatch
  | 58 :: comment => (r, [.comment comment])
  | _ =>
    if 58 ∈ text then r.field (cut 58 text).1 (valueOf (cut 58 text).2) else r.field text []

def run (r : Reader) : List Bytes → Reader × List Item
  | [] => (r, [])
  | text :: rest =>
    let (next, found) := r.line text
    let (final, more) := next.run rest
    (final, found ++ more)

/-- The reader at the end of a whole stream, and what it has found. -/
def read (stream : Bytes) : Reader × List Item := start.run (linesFrom [] stream)

theorem run_append (r : Reader) (first second : List Bytes) :
    r.run (first ++ second) =
      (((r.run first).1.run second).1, (r.run first).2 ++ ((r.run first).1.run second).2) := by
  induction first generalizing r with
  | nil => rfl
  | cons text first ih => simp only [List.cons_append, run, ih, List.append_assoc]

/-- A data line only grows the data. -/
theorem line_data (r : Reader) (value : Bytes) :
    r.line (ascii "data: " ++ value) = ({ r with data := r.data ++ value ++ [lf] }, []) := by
  have shape : ascii "data: " ++ value = ascii "data" ++ 58 :: 32 :: value := rfl
  have parts : cut 58 (ascii "data" ++ 58 :: 32 :: value) = (ascii "data", 32 :: value) :=
    cut_append (by decide) _
  have colon : (58 : UInt8) ∈ ascii "data" ++ 58 :: 32 :: value := by simp
  have reads : r.line (ascii "data" ++ 58 :: 32 :: value) =
      if 58 ∈ ascii "data" ++ 58 :: 32 :: value then
        r.field (cut 58 (ascii "data" ++ 58 :: 32 :: value)).1
          (valueOf (cut 58 (ascii "data" ++ 58 :: 32 :: value)).2)
      else r.field (ascii "data" ++ 58 :: 32 :: value) [] := rfl
  rw [shape, reads, if_pos colon, parts]
  exact if_pos rfl

theorem run_data (r : Reader) (values : List Bytes) :
    r.run (values.map (ascii "data: " ++ ·)) =
      ({ r with data := r.data ++ values.flatMap (· ++ [lf]) }, []) := by
  induction values generalizing r with
  | nil => simp [run]
  | cons value values ih => simp [run, line_data, ih]

end Reader

/-! ## Lines -/

/-- A text without line ends. -/
def OneLine (text : Bytes) : Prop := lf ∉ text ∧ cr ∉ text

instance (text : Bytes) : Decidable (OneLine text) := inferInstanceAs (Decidable (_ ∧ _))

theorem OneLine.append {first second : Bytes} (left : OneLine first) (right : OneLine second) :
    OneLine (first ++ second) := by
  simp only [OneLine, List.mem_append, not_or]
  exact ⟨⟨left.1, right.1⟩, left.2, right.2⟩

theorem linesFrom_append (line text rest : Bytes) (single : OneLine text) :
    linesFrom line (text ++ lf :: rest) = (line ++ text) :: linesFrom [] rest := by
  induction text generalizing line with
  | nil => simp [linesFrom, lf]
  | cons b text ih =>
    obtain ⟨⟨notLf, tailLf⟩, notCr, tailCr⟩ :
        (lf ≠ b ∧ lf ∉ text) ∧ cr ≠ b ∧ cr ∉ text := by simpa [OneLine] using single
    have reads : linesFrom line (b :: (text ++ lf :: rest)) =
        linesFrom (line ++ [b]) (text ++ lf :: rest) := by
      rw [linesFrom]
      · exact fun same => notLf same.symm
      · exact fun _ same => absurd same.symm notCr
      · exact fun same => notCr same.symm
    rw [List.cons_append, reads, ih (line ++ [b]) ⟨tailLf, tailCr⟩, List.append_assoc]
    rfl

theorem linesFrom_flatMap (texts : List Bytes) (rest : Bytes)
    (single : ∀ text ∈ texts, OneLine text) :
    linesFrom [] (texts.flatMap (· ++ [lf]) ++ rest) = texts ++ linesFrom [] rest := by
  induction texts with
  | nil => rfl
  | cons text texts ih =>
    have first := linesFrom_append [] text (texts.flatMap (· ++ [lf]) ++ rest)
      (single text List.mem_cons_self)
    have later := ih fun other mem => single other (List.mem_cons_of_mem text mem)
    simpa [later] using first

/-- Lines that are each ended by LF are read back one by one. -/
theorem Reader.read_flatMap (texts : List Bytes) (single : ∀ text ∈ texts, OneLine text) :
    Reader.read (texts.flatMap (· ++ [lf])) = Reader.start.run texts := by
  have lines := linesFrom_flatMap texts [] single
  rw [List.append_nil, linesFrom, List.append_nil] at lines
  rw [Reader.read, lines]

end AcemcpRelay.Wire
