import Mathlib.Data.List.Forall2
import RingRouting.Proofs.Column.Grammar

/-!
# Rows of cells

A column holds values of its type, and the empty value, which is written as no octets.  No octets
are read under every type but one: as the text or the octets of length zero where the type has
such a value, and as the empty value elsewhere.  Only an address has neither.  So a row that was
written is read back, up to empty values in columns that have a value of length zero, and is
written anew as the same octets; unless an empty value stands in a column of addresses.

Main definitions:

- `ColumnType.Admits`: the values that a column may hold.
- `ColumnType.ofNothing`, `ColumnType.asRead`: what no octets are read as, and what a value is.
- `encodeRow`, `decodeRow`: the cells of a row, and the values of some cells.

Main results:

- Theorem `Value.decode_encode`: the cell of a value that has a type.
- Theorem `ColumnType.decode_nil`: the cell of no octets.
- Theorem `Value.encode_eq_nil_iff`: the values that are written as no octets.
- Theorem `rows_read_back`: rows, cell by cell.
-/

namespace RingRouting

/-! ## Cells without octets -/

/-- The cell of a value that has a type is read as that value. -/
theorem Value.decode_encode {value : Value} {type : ColumnType}
    (htype : value.columnType = some type) {cell : List UInt8}
    (hencode : value.encode = .ok cell) : type.decode cell = .ok value := by
  have hread := Value.decodeSized_encode htype hencode
  cases hwidth : type.fixedWidth with
  | none => rwa [ColumnType.decode_of_no_width hwidth]
  | some width =>
      rwa [ColumnType.decode_of_width hwidth (Value.length_encode htype hencode hwidth)]

namespace ColumnType

/-- The value of no octets: the text or the octets of length zero where the type has such a
value, and the empty value elsewhere. -/
def ofNothing : ColumnType → Value
  | ascii => .ascii ""
  | text => .text ""
  | blob => .blob []
  | _ => .empty

theorem encode_ofNothing (type : ColumnType) : type.ofNothing.encode = .ok [] := by
  cases type <;> rfl

/-- No octets are read under every type but one. -/
theorem decode_nil {type : ColumnType} (htype : type ≠ .inet) :
    type.decode [] = .ok type.ofNothing := by
  cases type with
  | inet => exact absurd rfl htype
  | ascii | text | blob => exact Value.decode_encode rfl (encode_ofNothing _)
  | _ => rfl

end ColumnType

namespace Value

theorem columnType_eq_none_iff {value : Value} : value.columnType = none ↔ value = .empty := by
  cases value <;> simp [columnType]

/-- The values that are written as no octets are those that no octets are read as. -/
theorem encode_eq_nil_iff {value : Value} :
    value.encode = .ok [] ↔ ∃ type : ColumnType, value = type.ofNothing := by
  constructor
  · intro hencode
    cases htype : value.columnType with
    | none => exact ⟨.int, columnType_eq_none_iff.1 htype⟩
    | some type =>
        have hread := decode_encode htype hencode
        by_cases hinet : type = .inet
        · subst hinet
          cases hread
        · rw [ColumnType.decode_nil hinet] at hread
          exact ⟨type, (Except.ok.inj hread).symm⟩
  · rintro ⟨type, rfl⟩
    exact type.encode_ofNothing

end Value

/-! ## Columns -/

namespace ColumnType

/-- A column holds values of its type, and the empty value. -/
def Admits (type : ColumnType) (value : Value) : Prop :=
  value.columnType = some type ∨ value = .empty

/-- What a value is read as in a column: itself, but the empty value as what no octets are. -/
def asRead (type : ColumnType) : Value → Value
  | .empty => type.ofNothing
  | value => value

theorem asRead_of_columnType (type : ColumnType) {value : Value} {own : ColumnType}
    (htype : value.columnType = some own) : type.asRead value = value := by
  cases value with
  | empty => cases htype
  | _ => rfl

/-- A cell that was written is read, unless it is an empty value in a column of addresses, and
what is read is written as the same octets. -/
theorem decode_cell {type : ColumnType} {value : Value} {cell : List UInt8}
    (hadmits : type.Admits value) (hencode : value.encode = .ok cell)
    (hsome : ¬ (type = .inet ∧ value = .empty)) :
    type.decode cell = .ok (type.asRead value) ∧ (type.asRead value).encode = .ok cell := by
  rcases hadmits with htype | rfl
  · rw [asRead_of_columnType type htype]
    exact ⟨Value.decode_encode htype hencode, hencode⟩
  · cases hencode
    exact ⟨decode_nil fun hinet => hsome ⟨hinet, rfl⟩, type.encode_ofNothing⟩

end ColumnType

/-! ## Rows -/

/-- The cells of a row, each as its value is written. -/
def encodeRow (values : List Value) : Except EncodingError (List (List UInt8)) :=
  values.mapM Value.encode

/-- The values of the cells of a row, each as it is read under the type of its column. -/
def decodeRow (types : List ColumnType) (cells : List (List UInt8)) :
    Except DecodingError (List Value) :=
  (types.zip cells).mapM fun column => column.1.decode column.2

theorem encodeRow_cons_eq_ok_iff {value : Value} {values : List Value}
    {cells : List (List UInt8)} :
    encodeRow (value :: values) = .ok cells ↔
      ∃ cell, value.encode = .ok cell ∧ ∃ rest, encodeRow values = .ok rest ∧
        cell :: rest = cells := by
  simp only [encodeRow, List.mapM_cons, Except.bind_eq_ok_iff, pure, Except.pure,
    Except.ok.injEq]

theorem decodeRow_cons (type : ColumnType) (types : List ColumnType) (cell : List UInt8)
    (cells : List (List UInt8)) :
    decodeRow (type :: types) (cell :: cells) =
      type.decode cell >>= fun value => decodeRow types cells >>= fun values =>
        .ok (value :: values) := by
  rw [decodeRow, List.zip_cons_cons, List.mapM_cons]
  rfl

/-- A row whose values are each of the column's type, or empty, and whose cells were written.
Unless an empty value stands in a column of addresses, all cells are read: a value that has a type
as itself, an empty one as what no octets are under the type of the column; and what is read is
written as the same cells.  An empty value in a column of addresses is the only one that is not
read, because an address has four octets or sixteen. -/
theorem rows_read_back {types : List ColumnType} {values : List Value}
    {cells : List (List UInt8)} (hadmits : List.Forall₂ ColumnType.Admits types values)
    (hwritten : encodeRow values = .ok cells) :
    ((ColumnType.inet, Value.empty) ∉ types.zip values →
      let read := List.zipWith ColumnType.asRead types values
      decodeRow types cells = .ok read ∧ encodeRow read = .ok cells) ∧
    ((ColumnType.inet, Value.empty) ∈ types.zip values →
      decodeRow types cells = .error (.badInetLength 0)) := by
  induction hadmits generalizing cells with
  | nil =>
      cases hwritten
      exact ⟨fun _ => ⟨rfl, rfl⟩, fun hmem => absurd hmem List.not_mem_nil⟩
  | @cons type value types values hcolumn _ ih =>
      obtain ⟨cell, hcell, rest, hrest, rfl⟩ := encodeRow_cons_eq_ok_iff.1 hwritten
      obtain ⟨hread, hunread⟩ := ih hrest
      rw [List.zip_cons_cons, List.mem_cons, Prod.mk.injEq, decodeRow_cons]
      by_cases hfirst : type = .inet ∧ value = .empty
      · obtain ⟨rfl, rfl⟩ := hfirst
        cases hcell
        exact ⟨fun hnone => absurd (.inl ⟨rfl, rfl⟩) hnone, fun _ => rfl⟩
      · obtain ⟨hdecode, hagain⟩ := ColumnType.decode_cell hcolumn hcell hfirst
        have hlater : ¬ (ColumnType.inet = type ∧ Value.empty = value) :=
          fun h => hfirst ⟨h.1.symm, h.2.symm⟩
        rw [or_iff_right hlater, hdecode]
        refine ⟨fun hnone => ?_, fun hmem => ?_⟩
        · obtain ⟨hdecodeRest, hagainRest⟩ := hread hnone
          rw [hdecodeRest]
          exact ⟨rfl, encodeRow_cons_eq_ok_iff.2 ⟨cell, hagain, rest, hagainRest, rfl⟩⟩
        · rw [hunread hmem]
          rfl

/-- An empty value in a column of texts comes back as a text, one in a column of numbers as it
is, both as no octets.  One more in a column of addresses, and the row is not read. -/
theorem rows_read_back_of_empty_values :
    let types : List ColumnType := [.text, .int, .varint, .inet]
    let address := Address.ofQuad 10 0 0 1
    let cells : List (List UInt8) := [[], [], [0xFF], [10, 0, 0, 1]]
    encodeRow [.empty, .empty, .varint (-1), .inet address] = .ok cells ∧
      decodeRow types cells = .ok [.text "", .empty, .varint (-1), .inet address] ∧
      encodeRow [.text "", .empty, .varint (-1), .inet address] = .ok cells ∧
      decodeRow types [[], [], [0xFF], []] = .error (.badInetLength 0) := by
  intro types address cells
  have hwritten : encodeRow [.empty, .empty, .varint (-1), .inet address] = .ok cells := by
    decide +kernel
  have hunaddressed : encodeRow [.empty, .empty, .varint (-1), .empty] =
      .ok [[], [], [0xFF], []] := by
    decide +kernel
  have hempty (type : ColumnType) : type.Admits .empty := .inr rfl
  have hnumber : ColumnType.Admits .varint (.varint (-1)) := .inl rfl
  have haddress : ColumnType.Admits .inet (.inet address) := .inl rfl
  have hrow : List.Forall₂ ColumnType.Admits types
      [.empty, .empty, .varint (-1), .inet address] :=
    .cons (hempty _) (.cons (hempty _) (.cons hnumber (.cons haddress .nil)))
  have hother : List.Forall₂ ColumnType.Admits types [.empty, .empty, .varint (-1), .empty] :=
    .cons (hempty _) (.cons (hempty _) (.cons hnumber (.cons (hempty _) .nil)))
  obtain ⟨hread, hagain⟩ := (rows_read_back hrow hwritten).1 (by decide)
  exact ⟨hwritten, hread, hagain, (rows_read_back hother hunaddressed).2 (by decide)⟩

/-- An empty value is written in a column of addresses, and what is written is not read. -/
theorem empty_address_unread :
    List.Forall₂ ColumnType.Admits [.inet] [.empty] ∧ encodeRow [.empty] = .ok [[]] ∧
      ¬ ∃ values, decodeRow [.inet] [[]] = .ok values := by
  refine ⟨.cons (.inr rfl) .nil, rfl, ?_⟩
  rintro ⟨values, hread⟩
  cases hread

end RingRouting
