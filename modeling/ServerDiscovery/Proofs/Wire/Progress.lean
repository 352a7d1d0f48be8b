import ServerDiscovery.Error
import ServerDiscovery.Proofs.Wire.Queue

/-! # Reads of any bytes, in any order

Nobody promises that the bytes in a buffer are the fields that are asked for.  Three things can be
relied on all the same.  A read that succeeds takes at least one byte, a read that fails takes none,
and no read depends on what stands behind the bytes that it takes.

`FieldBuffer.popField_eq_ok_iff` says what a read takes, and the laws of one read follow
(`FieldBuffer.readsSteadily`).  For any number of reads and writes, the invariant is that the fields
that were read stand in a row at the front of all bytes there were, and what stands behind them is
left (`FieldBuffer.beginsWith_received`).  Conversely, fields in a row are read one by one, and it
makes no difference when a writer comes between (`FieldBuffer.answers_of_beginsWith`): they stay at
the front, whatever is written at the end.
-/

namespace ServerDiscovery.Wire

/-! ## 1. One read -/

/-- What a read asks for. -/
inductive FieldKind where
  | integer
  | text
deriving DecidableEq, Repr

/-- What a read that returns the field has asked for. -/
def Field.kind : Field → FieldKind
  | .integer _ => .integer
  | .text _ => .text

variable {bytes rest : Bytes} {b left : FieldBuffer} {kind : FieldKind} {kinds : List FieldKind}
  {field : Field} {fields : List Field} {e : FieldError} {op : Operation} {ops : List Operation}
  {α : Type} {reader : Bytes → Except FieldError (α × Bytes)} {toField : α → Field}

namespace Field

/-- A field takes at least one byte. -/
theorem IsAt.length_pos (h : field.IsAt bytes) : 0 < bytes.length := by
  have hbytes : bytes = bytes ++ [] := (List.append_nil bytes).symm
  cases field with
  | integer v => exact length_of_unpackInteger (unpackInteger_eq_ok_iff.mpr ⟨bytes, hbytes, h⟩)
  | text text => exact length_of_unpackText (unpackText_eq_ok_iff.mpr ⟨bytes, hbytes, h⟩)

/-- An integer takes at most five bytes. -/
theorem IsAt.length_le (h : field.IsAt bytes) (hkind : field.kind = .integer) :
    bytes.length ≤ maxIntegerSize := by
  cases field with
  | integer v => exact h.1.length_le
  | text text => cases hkind

end Field

namespace FieldBuffer

/-- Read a field. -/
def popField (b : FieldBuffer) : FieldKind → Except FieldError Field × FieldBuffer
  | .integer => (b.popInteger.1.map .integer, b.popInteger.2)
  | .text => (b.popText.1.map .text, b.popText.2)

theorem map_popWith_eq_ok_iff :
    ((b.popWith reader).1.map toField, (b.popWith reader).2) = (.ok field, left) ↔
      ∃ value, toField value = field ∧ reader b.bytes = .ok (value, left.bytes) := by
  simp only [← popWith_eq_ok_iff]
  rcases b.popWith reader with ⟨_ | value, after⟩
  · simp [Except.map]
  · constructor
    · intro h
      cases h
      exact ⟨value, rfl, rfl⟩
    · rintro ⟨_, rfl, h⟩
      cases h
      rfl

theorem map_popWith_eq_error
    (h : ((b.popWith reader).1.map toField, (b.popWith reader).2) = (.error e, left)) :
    left = b := by
  unfold popWith at h
  split at h
  · cases h
  · cases h
    rfl

/-- **A read takes the bytes of one field from the front**, and returns the field. -/
theorem popField_eq_ok_iff :
    b.popField kind = (.ok field, left) ↔
      field.kind = kind ∧ ∃ taken, b.bytes = taken ++ left.bytes ∧ field.IsAt taken := by
  cases kind with
  | integer =>
    rw [popField, popInteger, map_popWith_eq_ok_iff]
    simp only [unpackInteger_eq_ok_iff]
    constructor
    · rintro ⟨v, rfl, hread⟩
      exact ⟨rfl, hread⟩
    · rintro ⟨hkind, hread⟩
      cases field with
      | integer v => exact ⟨v, rfl, hread⟩
      | text text => cases hkind
  | text =>
    rw [popField, popText, map_popWith_eq_ok_iff]
    simp only [unpackText_eq_ok_iff]
    constructor
    · rintro ⟨text, rfl, hread⟩
      exact ⟨rfl, hread⟩
    · rintro ⟨hkind, hread⟩
      cases field with
      | integer v => cases hkind
      | text text => exact ⟨text, rfl, hread⟩

/-- A read that fails takes nothing. -/
theorem eq_of_popField_eq_error (h : b.popField kind = (.error e, left)) : left = b := by
  cases kind with
  | integer => exact map_popWith_eq_error h
  | text => exact map_popWith_eq_error h

/-- A read that succeeds takes at least one byte. -/
theorem size_lt_of_popField (h : b.popField kind = (.ok field, left)) : left.size < b.size := by
  obtain ⟨-, taken, hbytes, hfield⟩ := popField_eq_ok_iff.mp h
  have hpos := hfield.length_pos
  rw [size, size, hbytes, List.length_append]
  omega

theorem size_le_of_popField (h : b.popField .integer = (.ok field, left)) :
    b.size ≤ left.size + maxIntegerSize := by
  obtain ⟨hkind, taken, hbytes, hfield⟩ := popField_eq_ok_iff.mp h
  have hle := hfield.length_le hkind
  rw [size, size, hbytes, List.length_append]
  omega

/-- **A read does not depend on what is behind the bytes that it takes.** -/
theorem popField_append_iff (more : Bytes) :
    (⟨b.bytes ++ more⟩ : FieldBuffer).popField kind = (.ok field, ⟨left.bytes ++ more⟩) ↔
      b.popField kind = (.ok field, left) := by
  simp only [popField_eq_ok_iff, ← List.append_assoc, List.append_left_inj]

/-- What can be relied on when a buffer is read, whatever its bytes are. -/
structure ReadsSteadily (b : FieldBuffer) (kind : FieldKind) : Prop where
  /-- A read succeeds if the bytes of a field of the kind are in front, and takes these. -/
  takes : ∀ field left, b.popField kind = (.ok field, left) ↔
    field.kind = kind ∧ ∃ taken, b.bytes = taken ++ left.bytes ∧ field.IsAt taken
  /-- A read that succeeds takes a byte at least, and five at most if it is an integer. -/
  progress : ∀ field left, b.popField kind = (.ok field, left) →
    left.size < b.size ∧ (kind = .integer → b.size ≤ left.size + maxIntegerSize)
  /-- A read that fails changes nothing, and fails again. -/
  unchanged : ∀ e left, b.popField kind = (.error e, left) →
    left = b ∧ left.popField kind = (.error e, left)
  /-- Bytes at the end change nothing for a read that leaves them. -/
  append_iff : ∀ field left more, b.popField kind = (.ok field, left) ↔
    (⟨b.bytes ++ more⟩ : FieldBuffer).popField kind = (.ok field, ⟨left.bytes ++ more⟩)
  /-- A read that succeeds may as well come after a write. -/
  commutes : ∀ field left, b.popField kind = (.ok field, left) →
    (∀ v, (b.pushInteger v).popField kind = (.ok field, left.pushInteger v)) ∧
      ∀ text, (b.pushText text).popField kind = (.ok field, left.pushText text)

theorem readsSteadily (b : FieldBuffer) (kind : FieldKind) : b.ReadsSteadily kind where
  takes := fun _ _ => popField_eq_ok_iff
  progress := by
    intro field left h
    refine ⟨size_lt_of_popField h, ?_⟩
    rintro rfl
    exact size_le_of_popField h
  unchanged := by
    intro e left h
    obtain rfl := eq_of_popField_eq_error h
    exact ⟨rfl, h⟩
  append_iff := fun _ _ more => (popField_append_iff more).symm
  commutes := fun _ _ h =>
    ⟨fun v => (popField_append_iff (packInteger v)).mpr h,
      fun text => (popField_append_iff (packText text)).mpr h⟩

end FieldBuffer

/-! ## 2. Fields in a row take their bytes -/

theorem Spells.length_le (h : Spells bytes fields) : fields.length ≤ bytes.length := by
  induction h with
  | nil => exact Nat.le_refl 0
  | cons hfield _ ih =>
    have hpos := hfield.length_pos
    rw [List.length_cons, List.length_append]
    omega

theorem BeginsWith.length_le (h : BeginsWith bytes fields rest) :
    fields.length + rest.length ≤ bytes.length := by
  obtain ⟨taken, rfl, htaken⟩ := h
  rw [List.length_append]
  exact Nat.add_le_add_right htaken.length_le _

theorem BeginsWith.isSuffix (h : BeginsWith bytes fields rest) : rest <:+ bytes := by
  obtain ⟨taken, hbytes, -⟩ := h
  exact ⟨taken, hbytes.symm⟩

/-- The first field in a row is the one that is read. -/
theorem FieldBuffer.beginsWith_cons_iff_popField :
    BeginsWith b.bytes (field :: fields) rest ↔
      ∃ left, b.popField field.kind = (.ok field, left) ∧ BeginsWith left.bytes fields rest := by
  simp only [beginsWith_cons_iff, popField_eq_ok_iff, true_and]
  constructor
  · rintro ⟨first, after, hbytes, hfirst, hafter⟩
    exact ⟨⟨after⟩, ⟨first, hbytes, hfirst⟩, hafter⟩
  · rintro ⟨left, ⟨first, hbytes, hfirst⟩, hleft⟩
    exact ⟨first, left.bytes, hbytes, hfirst, hleft⟩

/-! ## 3. Reads and writes in any order -/

namespace Operation

/-- The read of a field. -/
def pop : FieldKind → Operation
  | .integer => .popInteger
  | .text => .popText

/-- What is asked for, if the operation is a read. -/
def asked? : Operation → Option FieldKind
  | .pushInteger _ => none
  | .pushText _ => none
  | .popInteger => some .integer
  | .popText => some .text

/-- The bytes that the operation writes. -/
def written : Operation → Bytes
  | .pushInteger v => packInteger v
  | .pushText text => packText text
  | .popInteger => []
  | .popText => []

@[simp] theorem asked?_pop (kind : FieldKind) : (pop kind).asked? = some kind := by
  cases kind <;> rfl

@[simp] theorem written_pop (kind : FieldKind) : (pop kind).written = [] := by
  cases kind <;> rfl

theorem onBuffer_pop (b : FieldBuffer) (kind : FieldKind) :
    (pop kind).onBuffer b = (some (b.popField kind).1, (b.popField kind).2) := by
  cases kind <;> rfl

/-- An operation is a read, or it puts bytes at the end and answers nothing. -/
theorem cases_onBuffer (op : Operation) (b : FieldBuffer) :
    (∃ kind, op = pop kind) ∨
      (op.asked? = none ∧ op.onBuffer b = (none, ⟨b.bytes ++ op.written⟩)) := by
  cases op with
  | pushInteger v => exact .inr ⟨rfl, rfl⟩
  | pushText text => exact .inr ⟨rfl, rfl⟩
  | popInteger => exact .inl ⟨.integer, rfl⟩
  | popText => exact .inl ⟨.text, rfl⟩

end Operation

/-- What the reads among operations ask for, in order. -/
def asked (ops : List Operation) : List FieldKind := ops.filterMap Operation.asked?

/-- The bytes that are written by operations, in order. -/
def written (ops : List Operation) : Bytes := ops.flatMap Operation.written

theorem written_cons_pop (kind : FieldKind) (ops : List Operation) :
    written (.pop kind :: ops) = written ops := by
  rw [written, List.flatMap_cons, Operation.written_pop, List.nil_append, written]

theorem written_pop (kinds : List FieldKind) : written (kinds.map .pop) = [] := by
  simp [written]

namespace FieldBuffer

/-- What the reads among operations answer. -/
def answers (b : FieldBuffer) (ops : List Operation) : List (Except FieldError Field) :=
  (b.trace ops).filterMap Prod.fst

/-- The fields that are read. -/
def received (b : FieldBuffer) (ops : List Operation) : List Field :=
  (b.answers ops).filterMap Except.toOption

/-- The buffer after operations. -/
def after (b : FieldBuffer) (ops : List Operation) : FieldBuffer :=
  ops.foldl (fun b op => (op.onBuffer b).2) b

theorem answers_pop (b : FieldBuffer) (kind : FieldKind) (ops : List Operation) :
    b.answers (.pop kind :: ops) = (b.popField kind).1 :: (b.popField kind).2.answers ops := by
  rw [answers, trace, Operation.onBuffer_pop]
  rfl

theorem after_pop (b : FieldBuffer) (kind : FieldKind) (ops : List Operation) :
    b.after (.pop kind :: ops) = (b.popField kind).2.after ops := by
  rw [after, List.foldl_cons, Operation.onBuffer_pop]
  rfl

/-- A write answers nothing. -/
theorem answers_of_write (h : op.onBuffer b = (none, ⟨bytes⟩)) :
    b.answers (op :: ops) = (⟨bytes⟩ : FieldBuffer).answers ops := by
  rw [answers, trace, h]
  rfl

theorem after_of_write (h : op.onBuffer b = (none, ⟨bytes⟩)) :
    b.after (op :: ops) = (⟨bytes⟩ : FieldBuffer).after ops := by
  rw [after, List.foldl_cons, h]
  rfl

/-- **The fields that were read stand in a row at the front of all bytes there were**, and what is
behind them is left. -/
theorem beginsWith_received (b : FieldBuffer) (ops : List Operation) :
    BeginsWith (b.bytes ++ written ops) (b.received ops) (b.after ops).bytes := by
  induction ops generalizing b with
  | nil => exact beginsWith_nil_iff.mpr (List.append_nil b.bytes)
  | cons op ops ih =>
    obtain ⟨kind, rfl⟩ | ⟨-, hwrite⟩ := op.cases_onBuffer b
    · rw [received, answers_pop, after_pop, written_cons_pop]
      rcases hread : b.popField kind with ⟨e | field, left⟩
      -- A failure adds no field, and there is nothing that it takes.
      · obtain rfl := eq_of_popField_eq_error hread
        exact ih left
      · obtain ⟨-, taken, hbytes, hfield⟩ := popField_eq_ok_iff.mp hread
        rw [hbytes, List.append_assoc]
        exact beginsWith_cons_iff.mpr ⟨taken, _, rfl, hfield, ih left⟩
    · rw [received, answers_of_write hwrite, after_of_write hwrite, written, List.flatMap_cons,
        ← List.append_assoc]
      exact ih ⟨b.bytes ++ op.written⟩

/-- **Fields in a row are read one by one, whenever a writer comes between.** -/
theorem answers_of_beginsWith (h : BeginsWith b.bytes fields rest)
    (hasked : asked ops = fields.map Field.kind) :
    b.answers ops = fields.map .ok ∧ (b.after ops).bytes = rest ++ written ops := by
  induction ops generalizing b fields rest with
  | nil =>
    obtain rfl := List.map_eq_nil_iff.mp hasked.symm
    exact ⟨rfl, (beginsWith_nil_iff.mp h).trans (List.append_nil rest).symm⟩
  | cons op ops ih =>
    obtain ⟨kind, rfl⟩ | ⟨hnone, hwrite⟩ := op.cases_onBuffer b
    · have hcons : asked (.pop kind :: ops) = kind :: asked ops := by simp [asked]
      rw [hcons] at hasked
      obtain ⟨field, others, rfl, rfl, hothers⟩ := List.map_eq_cons_iff.mp hasked.symm
      obtain ⟨left, hread, hleft⟩ := beginsWith_cons_iff_popField.mp h
      obtain ⟨hanswers, hafter⟩ := ih hleft hothers.symm
      rw [answers_pop, after_pop, hread, written_cons_pop]
      exact ⟨congrArg (.ok field :: ·) hanswers, hafter⟩
    -- What is written stands behind the row, so the same fields are still to be read.
    · have hsame : asked (op :: ops) = asked ops := by simp [asked, hnone]
      obtain ⟨hanswers, hafter⟩ := ih (h.append op.written) (hsame ▸ hasked)
      rw [answers_of_write hwrite, after_of_write hwrite, written, List.flatMap_cons,
        ← List.append_assoc]
      exact ⟨hanswers, hafter⟩

/-- Reads that all succeed return what they ask for. -/
theorem map_kind_of_answers (h : b.answers (kinds.map .pop) = fields.map .ok) :
    fields.map Field.kind = kinds := by
  induction kinds generalizing b fields with
  | nil =>
    obtain rfl := List.map_eq_nil_iff.mp h.symm
    rfl
  | cons kind kinds ih =>
    rw [List.map_cons, answers_pop] at h
    obtain ⟨field, others, rfl, hfirst, hothers⟩ := List.map_eq_cons_iff.mp h.symm
    have hread : b.popField kind = (.ok field, (b.popField kind).2) := by rw [hfirst]
    rw [List.map_cons, (popField_eq_ok_iff.mp hread).1, ih hothers.symm]

theorem received_of_answers (h : b.answers ops = fields.map .ok) : b.received ops = fields := by
  rw [received, h, List.filterMap_map]
  exact List.filterMap_some

/-- **Reads that all succeed may as well come between writes.**  They return the same, and what was
written is behind what they leave. -/
theorem answers_interleaved (h : b.answers ((asked ops).map .pop) = fields.map .ok) :
    b.answers ops = fields.map .ok ∧
      (b.after ops).bytes = (b.after ((asked ops).map .pop)).bytes ++ written ops := by
  have hrow := b.beginsWith_received ((asked ops).map .pop)
  rw [written_pop, List.append_nil, received_of_answers h] at hrow
  exact answers_of_beginsWith hrow (map_kind_of_answers h).symm

/-! ## 4. Reading until a read fails -/

/-- What a loop of reads ends with. -/
structure Drained where
  fields : List Field
  error : FieldError
  left : FieldBuffer
deriving DecidableEq, Repr

/-- Read fields until a read fails.  What is asked for next may depend on all that was read. -/
def drain (next : List Field → FieldKind) (b : FieldBuffer) : Drained :=
  match _h : b.popField (next []) with
  | (.error e, left) => ⟨[], e, left⟩
  | (.ok field, left) =>
    let others := drain (fun fields => next (field :: fields)) left
    ⟨field :: others.fields, others.error, others.left⟩
termination_by b.size
decreasing_by exact size_lt_of_popField _h

/-- The loop has read fields in a row when the next read fails. -/
theorem drain_eq (next : List Field → FieldKind) (b : FieldBuffer) :
    BeginsWith b.bytes (b.drain next).fields (b.drain next).left.bytes ∧
      (b.drain next).left.popField (next (b.drain next).fields) =
        (.error (b.drain next).error, (b.drain next).left) := by
  fun_induction drain next b with
  | case1 next b e left hread =>
    obtain rfl := eq_of_popField_eq_error hread
    exact ⟨beginsWith_nil_iff.mpr rfl, hread⟩
  | case2 next b field left hread others ih =>
    obtain ⟨hrow, hfailed⟩ := ih
    obtain ⟨-, taken, hbytes, hfield⟩ := popField_eq_ok_iff.mp hread
    exact ⟨beginsWith_cons_iff.mpr ⟨taken, _, hbytes, hfield, hrow⟩, hfailed⟩

/-- **Reads of any bytes are steady.**  What is left is at all times the end of the bytes there
were, and no more reads succeed than there were bytes.  One that succeeds takes at least a byte, one
that fails changes nothing, and bytes added at the end change nothing for one that succeeds.  So a
loop that ends with the first failure makes as many reads as there are bytes at most, and reads that
all succeed return the same when writes come between. -/
theorem reads_steady (b : FieldBuffer) :
    (∀ schedule : List FieldKind,
      (b.after (schedule.map .pop)).bytes <:+ b.bytes ∧
      (b.received (schedule.map .pop)).length + (b.after (schedule.map .pop)).size ≤ b.size ∧
      ∀ kind, (b.after (schedule.map .pop)).ReadsSteadily kind) ∧
    (∀ next : List Field → FieldKind,
      (b.drain next).fields.length + (b.drain next).left.size ≤ b.size ∧
      BeginsWith b.bytes (b.drain next).fields (b.drain next).left.bytes ∧
      (b.drain next).left.popField (next (b.drain next).fields) =
        (.error (b.drain next).error, (b.drain next).left)) ∧
    ∀ (ops : List Operation) (fields : List Field),
      b.answers ((asked ops).map .pop) = fields.map .ok →
        b.answers ops = fields.map .ok ∧
          (b.after ops).bytes = (b.after ((asked ops).map .pop)).bytes ++ written ops := by
  refine ⟨fun schedule => ?_, fun next => ?_, fun ops fields => answers_interleaved⟩
  · have hrow := b.beginsWith_received (schedule.map .pop)
    rw [written_pop, List.append_nil] at hrow
    exact ⟨hrow.isSuffix, hrow.length_le, readsSteadily _⟩
  · obtain ⟨hrow, hfailed⟩ := b.drain_eq next
    exact ⟨hrow.length_le, hrow, hfailed⟩

/-- A text that is no UTF-8, and an integer that ends where the bytes end although its last byte is
continued. -/
def ragged : FieldBuffer := ⟨[0xC3, 0, 0xBF, 0xFF, 0xFF, 0xFF, 0x8F]⟩

/-- What is read from `ragged`. -/
def raggedFields : List Field := [.text (String.singleton Utf8.replacement), .integer 2147483647]

/-- Reads between writes. -/
def raggedOperations : List Operation := [.pushInteger (-65), .popText, .pushText "a", .popInteger]

theorem reads_steady_ragged :
    ragged.answers ((asked raggedOperations).map .pop) = raggedFields.map .ok ∧
      ragged.answers raggedOperations = raggedFields.map .ok ∧
      (ragged.after raggedOperations).bytes = [0xC0, 1, 0x61, 0] ∧
      (⟨[0xBF, 0xFF, 0xFF, 0xFF, 0x8F, 0x80]⟩ : FieldBuffer).popField .integer =
        (.ok (.integer 2147483647), ⟨[0x80]⟩) := by
  have hreads : ragged.answers ((asked raggedOperations).map .pop) = raggedFields.map .ok := by
    decide +kernel
  have hleft : (ragged.after ((asked raggedOperations).map .pop)).bytes = [] := by decide +kernel
  have hwritten : written raggedOperations = [0xC0, 1, 0x61, 0] := by decide +kernel
  have hlast : (ragged.after [.pop .text]).popField .integer =
      (.ok (.integer 2147483647), ⟨[]⟩) := by decide +kernel
  obtain ⟨hschedule, -, hbetween⟩ := reads_steady ragged
  obtain ⟨hanswers, hafter⟩ := hbetween raggedOperations raggedFields hreads
  obtain ⟨-, -, hsteady⟩ := hschedule [.text]
  rw [hleft, hwritten] at hafter
  exact ⟨hreads, hanswers, hafter, ((hsteady .integer).append_iff _ _ [0x80]).mp hlast⟩

end FieldBuffer

end ServerDiscovery.Wire
