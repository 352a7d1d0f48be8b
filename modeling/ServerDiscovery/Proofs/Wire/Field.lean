import ServerDiscovery.Proofs.Wire.Integer
import ServerDiscovery.Proofs.Wire.Text

/-! # Fields in a row

Messages are fields in a row, with nothing between them.  `BeginsWith bytes fields rest` says that
the front of `bytes` is made of `fields`, in any of the forms that a reader takes, and that `rest`
is what is left.  Its laws follow the list of fields, so they follow a reader that reads one field
after another: `beginsWith_integer_iff` and `beginsWith_text_iff` for one field,
`beginsWith_append_iff` for readers in a row.

Fields that were written are there (`beginsWith_packFields`), unless a text falls to pieces.
-/

namespace ServerDiscovery.Wire

/-! ## 1. One field -/

/-- A field of a message. -/
inductive Field where
  | integer (v : Int32)
  | text (text : String)
deriving DecidableEq, Repr

variable {bytes rest : Bytes} {fields others : List Field} {v : Int32} {text : String}

namespace Field

/-- The bytes of a field, as they are written. -/
def pack : Field → Bytes
  | .integer v => packInteger v
  | .text text => packText text

/-- The field is read back as one field. -/
def Whole : Field → Prop
  | .integer _ => True
  | .text text => NulFree text

/-- The bytes are those of the field, in any of the forms that a reader takes. -/
def IsAt : Field → Bytes → Prop
  | .integer v, bytes => IsInteger bytes ∧ v = integerValue bytes
  | .text text, bytes => IsText bytes ∧ text = textValue bytes

theorem isAt_pack {field : Field} (h : field.Whole) : field.IsAt field.pack := by
  cases field with
  | integer v => exact ⟨isInteger_packInteger v, (integerValue_packInteger v).symm⟩
  | text text => exact ⟨isText_packText h, (textValue_packText text).symm⟩

/-- What a reader takes is written as one field. -/
theorem IsAt.whole {field : Field} (h : field.IsAt bytes) : field.Whole := by
  cases field with
  | integer v => trivial
  | text text =>
    obtain ⟨htext, rfl⟩ := h
    exact nulFree_textValue htext

end Field

/-! ## 2. Fields in a row -/

/-- The bytes of fields in a row, as they are written. -/
def packFields (fields : List Field) : Bytes := fields.flatMap Field.pack

/-- The bytes are those of the fields in a row, in any of the forms that a reader takes. -/
inductive Spells : Bytes → List Field → Prop
  | nil : Spells [] []
  | cons {field : Field} {first bytes : Bytes} {fields : List Field} :
    field.IsAt first → Spells bytes fields → Spells (first ++ bytes) (field :: fields)

/-- The front of `bytes` are the fields in a row, and `rest` is left. -/
def BeginsWith (bytes : Bytes) (fields : List Field) (rest : Bytes) : Prop :=
  ∃ taken, bytes = taken ++ rest ∧ Spells taken fields

theorem beginsWith_nil_iff : BeginsWith bytes [] rest ↔ bytes = rest := by
  constructor
  · rintro ⟨taken, rfl, htaken⟩
    cases htaken
    rfl
  · rintro rfl
    exact ⟨[], rfl, .nil⟩

theorem beginsWith_cons_iff {field : Field} :
    BeginsWith bytes (field :: fields) rest ↔
      ∃ first left, bytes = first ++ left ∧ field.IsAt first ∧ BeginsWith left fields rest := by
  constructor
  · rintro ⟨taken, rfl, htaken⟩
    cases htaken with
    | @cons field first taken fields hfirst htaken =>
      exact ⟨first, taken ++ rest, List.append_assoc .., hfirst, taken, rfl, htaken⟩
  · rintro ⟨first, left, rfl, hfirst, taken, rfl, htaken⟩
    exact ⟨first ++ taken, (List.append_assoc ..).symm, .cons hfirst htaken⟩

/-- An integer in front is what a reader of integers reads. -/
theorem beginsWith_integer_iff :
    BeginsWith bytes (.integer v :: fields) rest ↔
      ∃ left, unpackInteger bytes = .ok (v, left) ∧ BeginsWith left fields rest := by
  rw [beginsWith_cons_iff]
  constructor
  · rintro ⟨first, left, hbytes, hfirst, hleft⟩
    exact ⟨left, unpackInteger_eq_ok_iff.mpr ⟨first, hbytes, hfirst⟩, hleft⟩
  · rintro ⟨left, hread, hleft⟩
    obtain ⟨first, hbytes, hfirst⟩ := unpackInteger_eq_ok_iff.mp hread
    exact ⟨first, left, hbytes, hfirst, hleft⟩

/-- A text in front is what a reader of texts reads. -/
theorem beginsWith_text_iff :
    BeginsWith bytes (.text text :: fields) rest ↔
      ∃ left, unpackText bytes = .ok (text, left) ∧ BeginsWith left fields rest := by
  rw [beginsWith_cons_iff]
  constructor
  · rintro ⟨first, left, hbytes, hfirst, hleft⟩
    exact ⟨left, unpackText_eq_ok_iff.mpr ⟨first, hbytes, hfirst⟩, hleft⟩
  · rintro ⟨left, hread, hleft⟩
    obtain ⟨first, hbytes, hfirst⟩ := unpackText_eq_ok_iff.mp hread
    exact ⟨first, left, hbytes, hfirst, hleft⟩

/-- Readers in a row. -/
theorem beginsWith_append_iff :
    BeginsWith bytes (fields ++ others) rest ↔
      ∃ left, BeginsWith bytes fields left ∧ BeginsWith left others rest := by
  induction fields generalizing bytes with
  | nil =>
    constructor
    · intro h
      exact ⟨bytes, beginsWith_nil_iff.mpr rfl, h⟩
    · rintro ⟨left, hnil, h⟩
      obtain rfl := beginsWith_nil_iff.mp hnil
      exact h
  | cons field fields ih =>
    rw [List.cons_append, beginsWith_cons_iff]
    constructor
    · rintro ⟨first, after, hbytes, hfirst, hafter⟩
      obtain ⟨left, hfields, hothers⟩ := ih.mp hafter
      exact ⟨left, beginsWith_cons_iff.mpr ⟨first, after, hbytes, hfirst, hfields⟩, hothers⟩
    · rintro ⟨left, hcons, hothers⟩
      obtain ⟨first, after, hbytes, hfirst, hfields⟩ := beginsWith_cons_iff.mp hcons
      exact ⟨first, after, hbytes, hfirst, ih.mpr ⟨left, hfields, hothers⟩⟩

/-- **Fields that were written are there**, whatever comes behind them. -/
theorem beginsWith_packFields (h : ∀ field ∈ fields, field.Whole) (rest : Bytes) :
    BeginsWith (packFields fields ++ rest) fields rest := by
  induction fields with
  | nil => exact beginsWith_nil_iff.mpr rfl
  | cons field fields ih =>
    obtain ⟨hfield, hfields⟩ := List.forall_mem_cons.mp h
    refine beginsWith_cons_iff.mpr ⟨field.pack, packFields fields ++ rest, ?_, ?_, ih hfields⟩
    · rw [packFields, List.flatMap_cons, List.append_assoc, packFields]
    · exact Field.isAt_pack hfield

/-- What comes behind is left. -/
theorem BeginsWith.append (h : BeginsWith bytes fields rest) (more : Bytes) :
    BeginsWith (bytes ++ more) fields (rest ++ more) := by
  obtain ⟨taken, rfl, htaken⟩ := h
  exact ⟨taken, List.append_assoc .., htaken⟩

/-- A cut into what is left leaves the fields. -/
theorem BeginsWith.take {size : Nat} (h : BeginsWith bytes fields rest)
    (hsize : bytes.length ≤ rest.length + size) :
    ∃ left, BeginsWith (bytes.take size) fields left := by
  obtain ⟨taken, rfl, htaken⟩ := h
  have hlength : taken.length ≤ size := by
    rw [List.length_append] at hsize
    omega
  refine ⟨rest.take (size - taken.length), taken, ?_, htaken⟩
  rw [List.take_append, List.take_of_length_le hlength]

/-- What is there can be written, and read again. -/
theorem BeginsWith.whole (h : BeginsWith bytes fields rest) : ∀ field ∈ fields, field.Whole := by
  induction fields generalizing bytes with
  | nil =>
    intro field hfield
    cases hfield
  | cons field fields ih =>
    obtain ⟨first, left, -, hfirst, hfields⟩ := beginsWith_cons_iff.mp h
    exact List.forall_mem_cons.mpr ⟨hfirst.whole, ih hfields⟩

end ServerDiscovery.Wire
