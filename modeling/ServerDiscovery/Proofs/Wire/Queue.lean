import ServerDiscovery.Proofs.Wire.Field
import ServerDiscovery.Wire.FieldBuffer

/-! # A buffer is a queue of fields

Fields are written behind those that are not yet read, so a buffer is read while it is written.  A
queue of fields says what has to come out: `Operation.onQueue?` takes the oldest field, if it has
the type that is asked for, and a text that is written enters it in pieces.

One operation keeps a buffer the bytes of its queue (`Operation.onBuffer_packFields`), because each
field announces its own end.  `FieldBuffer.trace_eq` follows by induction: a buffer does what the
queue does, at every operation.
-/

namespace ServerDiscovery.Wire

/-! ## 1. Operations -/

/-- What is done to a buffer. -/
inductive Operation where
  | pushInteger (v : Int32)
  | pushText (text : String)
  | popInteger
  | popText
deriving DecidableEq, Repr

namespace Operation

/-- The operation on a buffer: what a read answers, and the buffer afterwards. -/
def onBuffer (buffer : FieldBuffer) : Operation → Option (Except FieldError Field) × FieldBuffer
  | .pushInteger v => (none, buffer.pushInteger v)
  | .pushText text => (none, buffer.pushText text)
  | .popInteger => (some (buffer.popInteger.1.map .integer), buffer.popInteger.2)
  | .popText => (some (buffer.popText.1.map .text), buffer.popText.2)

/-- The operation on a queue: what a read answers, and the queue afterwards; `none` if the oldest
field has not the type that is asked for, or there is no field. -/
def onQueue? (queue : List Field) : Operation → Option (Option Field × List Field)
  | .pushInteger v => some (none, queue ++ [.integer v])
  | .pushText text => some (none, queue ++ (pieces text).map .text)
  | .popInteger =>
    match queue with
    | .integer v :: left => some (some (.integer v), left)
    | _ => none
  | .popText =>
    match queue with
    | .text text :: left => some (some (.text text), left)
    | _ => none

end Operation

/-- What a buffer answers to each operation, and what it is afterwards. -/
def FieldBuffer.trace (buffer : FieldBuffer) :
    List Operation → List (Option (Except FieldError Field) × FieldBuffer)
  | [] => []
  | op :: ops => op.onBuffer buffer :: (op.onBuffer buffer).2.trace ops

/-- What a queue answers to each operation, and what it is afterwards; `none` if some read asks for
another type than that of the oldest field. -/
def queueTrace? (queue : List Field) : List Operation → Option (List (Option Field × List Field))
  | [] => some []
  | op :: ops =>
    match op.onQueue? queue with
    | none => none
    | some step => (queueTrace? step.2 ops).map (step :: ·)

variable {queue after : List Field} {answer : Option Field} {op : Operation} {ops : List Operation}

/-! ## 2. One operation -/

theorem packFields_append (fields others : List Field) :
    packFields (fields ++ others) = packFields fields ++ packFields others := List.flatMap_append

/-- No field is written as no bytes. -/
theorem packFields_eq_nil_iff : packFields queue = [] ↔ queue = [] := by
  constructor
  · intro h
    rcases queue with _ | ⟨field, queue⟩
    · rfl
    · rw [packFields, List.flatMap_cons, List.append_eq_nil_iff] at h
      cases field with
      | integer v => exact absurd h.1 (packInteger_ne_nil v)
      | text text => exact absurd h.1 (List.append_ne_nil_of_right_ne_nil _ (by simp))
  · rintro rfl
    rfl

theorem packFields_pieces (text : String) :
    packFields ((pieces text).map .text) = packText text := by
  rw [packFields, List.flatMap_map, packText_eq_flatMap_pieces]
  rfl

/-- What an operation can do to a queue: a write enters fields behind it, and a read takes the
oldest field, which has the type that is asked for. -/
theorem Operation.cases_of_onQueue? (h : op.onQueue? queue = some (answer, after)) :
    (∃ v, op = .pushInteger v ∧ answer = none ∧ after = queue ++ [.integer v]) ∨
      (∃ text, op = .pushText text ∧ answer = none ∧ after = queue ++ (pieces text).map .text) ∨
      (∃ v, op = .popInteger ∧ answer = some (.integer v) ∧ queue = .integer v :: after) ∨
      ∃ text, op = .popText ∧ answer = some (.text text) ∧ queue = .text text :: after := by
  cases op with
  | pushInteger v =>
    cases h
    exact .inl ⟨v, rfl, rfl, rfl⟩
  | pushText text =>
    cases h
    exact .inr (.inl ⟨text, rfl, rfl, rfl⟩)
  | popInteger =>
    rcases queue with _ | ⟨v | text, queue⟩
    · cases h
    · cases h
      exact .inr (.inr (.inl ⟨v, rfl, rfl, rfl⟩))
    · cases h
  | popText =>
    rcases queue with _ | ⟨v | text, queue⟩
    · cases h
    · cases h
    · cases h
      exact .inr (.inr (.inr ⟨text, rfl, rfl, rfl⟩))

/-- A queue of whole fields stays one. -/
theorem Operation.whole_of_onQueue? (h : op.onQueue? queue = some (answer, after))
    (hwhole : ∀ field ∈ queue, field.Whole) : ∀ field ∈ after, field.Whole := by
  obtain ⟨v, -, -, rfl⟩ | ⟨text, -, -, rfl⟩ | ⟨v, -, -, rfl⟩ | ⟨text, -, -, rfl⟩ :=
    Operation.cases_of_onQueue? h
  · rw [List.forall_mem_append]
    refine ⟨hwhole, fun field hfield => ?_⟩
    obtain rfl := List.mem_singleton.mp hfield
    trivial
  · rw [List.forall_mem_append]
    refine ⟨hwhole, fun field hfield => ?_⟩
    obtain ⟨piece, hpiece, rfl⟩ := List.mem_map.mp hfield
    exact nulFree_of_mem_pieces hpiece
  · exact (List.forall_mem_cons.mp hwhole).2
  · exact (List.forall_mem_cons.mp hwhole).2

/-- **One operation keeps a buffer the bytes of its queue**, and answers what the queue answers. -/
theorem Operation.onBuffer_packFields (h : op.onQueue? queue = some (answer, after))
    (hwhole : ∀ field ∈ queue, field.Whole) :
    op.onBuffer ⟨packFields queue⟩ = (answer.map .ok, ⟨packFields after⟩) := by
  obtain ⟨v, rfl, rfl, rfl⟩ | ⟨text, rfl, rfl, rfl⟩ | ⟨v, rfl, rfl, rfl⟩ | ⟨text, rfl, rfl, rfl⟩ :=
    Operation.cases_of_onQueue? h
  · have hfield : packFields [.integer v] = packInteger v := List.append_nil _
    rw [packFields_append, hfield]
    rfl
  · rw [packFields_append, packFields_pieces]
    rfl
  · have hread : (⟨packFields (.integer v :: after)⟩ : FieldBuffer).popInteger =
        (.ok v, ⟨packFields after⟩) :=
      FieldBuffer.popWith_eq_ok_iff.mpr (unpackInteger_packInteger_append v (packFields after))
    rw [Operation.onBuffer, hread]
    rfl
  · have htext : NulFree text := hwhole _ List.mem_cons_self
    have hread : (⟨packFields (.text text :: after)⟩ : FieldBuffer).popText =
        (.ok text, ⟨packFields after⟩) :=
      FieldBuffer.popWith_eq_ok_iff.mpr (unpackText_packText_append htext (packFields after))
    rw [Operation.onBuffer, hread]
    rfl

/-! ## 3. Any number of operations -/

/-- What a buffer shows of a step of its queue. -/
def shown (step : Option Field × List Field) : Option (Except FieldError Field) × FieldBuffer :=
  (step.1.map .ok, ⟨packFields step.2⟩)

/-- A buffer that holds the bytes of a queue does what the queue does. -/
theorem FieldBuffer.trace_packFields {steps : List (Option Field × List Field)}
    (h : queueTrace? queue ops = some steps) (hwhole : ∀ field ∈ queue, field.Whole) :
    (⟨packFields queue⟩ : FieldBuffer).trace ops = steps.map shown := by
  induction ops generalizing queue steps with
  | nil =>
    cases h
    rfl
  | cons op ops ih =>
    rw [queueTrace?] at h
    split at h
    · cases h
    · next step hstep =>
      obtain ⟨others, hothers, rfl⟩ := Option.map_eq_some_iff.mp h
      have honce := Operation.onBuffer_packFields hstep hwhole
      have hrest := ih hothers (Operation.whole_of_onQueue? hstep hwhole)
      rw [FieldBuffer.trace, honce, hrest]
      rfl

/-- **A buffer is a queue of fields.**  If every read asks for the type of the oldest field, then
beginning with no field a buffer answers each read with this field, and holds the bytes of the
fields that are not yet read at all times; so it is empty exactly if there are none.  A text enters
the queue in the pieces between its U+0000, and as it is if it does not hold U+0000. -/
theorem FieldBuffer.trace_eq (ops : List Operation) (steps : List (Option Field × List Field))
    (h : queueTrace? [] ops = some steps) :
    ({} : FieldBuffer).trace ops = steps.map shown ∧
      (∀ step ∈ steps, (shown step).2.isEmpty = true ↔ step.2 = []) ∧
      ∀ text, NulFree text → pieces text = [text] := by
  refine ⟨FieldBuffer.trace_packFields h (by simp), fun step _ => ?_, fun _ => pieces_of_nulFree⟩
  rw [FieldBuffer.isEmpty, List.isEmpty_iff]
  exact packFields_eq_nil_iff

/-- Reads between writes, and a text that falls to two pieces. -/
def interleaved : List Operation :=
  [.pushText "a\x00é", .pushInteger (-1000), .popText, .pushText "", .popText, .popInteger,
    .popText]

/-- What a queue answers to `interleaved`, and what it is afterwards. -/
def interleavedSteps : List (Option Field × List Field) :=
  [(none, [.text "a", .text "é"]), (none, [.text "a", .text "é", .integer (-1000)]),
    (some (.text "a"), [.text "é", .integer (-1000)]),
    (none, [.text "é", .integer (-1000), .text ""]),
    (some (.text "é"), [.integer (-1000), .text ""]), (some (.integer (-1000)), [.text ""]),
    (some (.text ""), [])]

theorem FieldBuffer.trace_eq_interleaved :
    queueTrace? [] interleaved = some interleavedSteps ∧
      ({} : FieldBuffer).trace interleaved = interleavedSteps.map shown ∧
      (∀ step ∈ interleavedSteps, (shown step).2.isEmpty = true ↔ step.2 = []) ∧
      ∀ text, NulFree text → pieces text = [text] :=
  ⟨by decide, FieldBuffer.trace_eq interleaved interleavedSteps (by decide)⟩

end ServerDiscovery.Wire
