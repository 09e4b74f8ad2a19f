import DeviceColumns.Proofs.Sharing.Layout
import DeviceColumns.Share.Import

/-!
The type map read backwards. The column type that an Arrow type stands for, if it is a leaf, has an
Arrow type again, which is the given one unless that is a decimal of 128 bits with a precision that
no width of decimals is recorded with: such a decimal is read as one of 128 bits and has the widest
precision from then on. Whatever else the type map does not produce is refused.
-/

namespace DeviceColumns

set_option autoImplicit false

theorem ColumnType.arrowScale_neg (logical : LogicalType) (scale : Int8) :
    arrowScale ⟨logical, -scale.toInt⟩ = .ok scale := by
  have lower := scale.le_toInt
  have upper := scale.toInt_lt
  have range : -128 ≤ - -scale.toInt ∧ - -scale.toInt ≤ 127 := by omega
  rw [arrowScale, if_pos range, Int.neg_neg, Int8.ofInt_toInt]

theorem ColumnType.toArrow_recorded (column : ColumnType) :
    column.recorded.toArrow = column.toArrow := by
  obtain ⟨logical, scale⟩ := column
  cases logical <;> rfl

/-- Nothing nested has an Arrow type of its own. -/
theorem ColumnType.recorded_leaf (column : ColumnType) {arrow : ArrowType}
    (made : column.toArrow = .ok arrow) : column.recorded.logical.isNested = false := by
  obtain ⟨logical, scale⟩ := column
  cases logical <;> first | rfl | cases made

namespace ArrowType

variable {arrow : ArrowType} {column : ColumnType} {fault : Error}

/-- The precisions that stand for a width of decimals. -/
def recordedPrecisions : List UInt8 :=
  [decimal32Precision, decimal64Precision, decimal128Precision]

/-- The precision, if the type is a decimal of 128 bits, stands for a width. -/
def PrecisionRecorded : ArrowType → Prop
  | .decimal128 precision _ => precision ∈ recordedPrecisions
  | _ => True

/-- The type, where a precision that stands for no width is replaced by the widest one. -/
def withRecordedPrecision : ArrowType → ArrowType
  | .decimal128 precision scale =>
      .decimal128 (if precision ∈ recordedPrecisions then precision else decimal128Precision) scale
  | other => other

theorem withRecordedPrecision_eq_iff :
    arrow.withRecordedPrecision = arrow ↔ arrow.PrecisionRecorded := by
  cases arrow
  case decimal128 precision scale =>
    rw [withRecordedPrecision, PrecisionRecorded, decimal128.injEq, ite_eq_left_iff]
    have widest : decimal128Precision ∈ recordedPrecisions := by decide
    constructor
    · rintro ⟨same, -⟩
      by_contra unknown
      exact unknown (same unknown ▸ widest)
    · exact fun known => ⟨fun unknown => absurd known unknown, rfl⟩
  all_goals exact ⟨fun _ => trivial, fun _ => rfl⟩

theorem toArrow_decimal (precision : UInt8) (scale : Int8) :
    ColumnType.toArrow ⟨decimalOfPrecision precision, -scale.toInt⟩ =
      .ok (withRecordedPrecision (.decimal128 precision scale)) := by
  by_cases narrow : precision = decimal32Precision
  · subst narrow
    simp only [decimalOfPrecision, if_pos, ColumnType.toArrow, ColumnType.arrowScale_neg]
    rfl
  · by_cases middle : precision = decimal64Precision
    · subst middle
      simp only [decimalOfPrecision, if_neg narrow, if_pos, ColumnType.toArrow,
        ColumnType.arrowScale_neg]
      rfl
    · have known : (if precision ∈ recordedPrecisions then precision else decimal128Precision) =
          decimal128Precision := by
        simp only [recordedPrecisions, List.mem_cons, narrow, middle, false_or, List.not_mem_nil,
          or_false, ite_eq_right_iff, imp_self]
      simp only [decimalOfPrecision, if_neg narrow, if_neg middle, ColumnType.toArrow,
        ColumnType.arrowScale_neg, withRecordedPrecision, known]
      rfl

/-- A leaf that an Arrow type stands for has this Arrow type, but for a precision that stands for no
width. -/
theorem toArrow_toColumn (stands : arrow.toColumn = .ok column)
    (leaf : column.logical.isNested = false) :
    column.toArrow = .ok arrow.withRecordedPrecision := by
  cases arrow
  case decimal128 precision scale =>
    cases stands
    exact toArrow_decimal precision scale
  case timestamp unit zone =>
    cases zone <;> cases unit <;> cases stands <;> rfl
  case duration unit =>
    cases unit <;> cases stands <;> rfl
  all_goals cases stands <;> first | rfl | contradiction

/-- Whatever its precision, a decimal of 128 bits stands for a leaf. -/
theorem leaf_of_not_recorded (unrecorded : ¬arrow.PrecisionRecorded) :
    ∃ column, arrow.toColumn = .ok column ∧ column.logical.isNested = false := by
  cases arrow
  case decimal128 precision scale =>
    refine ⟨_, rfl, ?_⟩
    unfold decimalOfPrecision
    split_ifs <;> rfl
  all_goals exact absurd trivial unrecorded

theorem toColumn_error (refused : arrow.toColumn = .error fault) : fault = .noColumnType arrow := by
  unfold toColumn at refused
  split at refused
  all_goals cases refused
  rfl

/-- The Arrow types that the type map produces are those that stand for a leaf, without the decimals
whose precision stands for no width. -/
theorem produced_iff : (∃ column : ColumnType, column.toArrow = .ok arrow) ↔
    arrow.PrecisionRecorded ∧
      ∃ column, arrow.toColumn = .ok column ∧ column.logical.isNested = false := by
  constructor
  · rintro ⟨column, made⟩
    have stands := ColumnType.toColumn_toArrow made
    have leaf := column.recorded_leaf made
    have again := toArrow_toColumn stands leaf
    rw [column.toArrow_recorded, made] at again
    exact ⟨withRecordedPrecision_eq_iff.mp (Except.ok.inj again).symm, _, stands, leaf⟩
  · rintro ⟨recorded, column, stands, leaf⟩
    have again := toArrow_toColumn stands leaf
    rw [withRecordedPrecision_eq_iff.mpr recorded] at again
    exact ⟨column, again⟩

/-- What becomes of an Arrow type that is read backwards. A leaf has the Arrow type that it was read
from, up to the precision of decimals; so reading is the inverse of the type map exactly if the
precision stands for a width. With such a precision, what the type map does not produce stands for
no leaf; and what stands for nothing is refused as unsupported, before a column of this type is
opened. -/
structure ReadBackwards (arrow : ArrowType) : Prop where
  leaf : ∀ column, arrow.toColumn = .ok column → column.logical.isNested = false →
    column.toArrow = .ok arrow.withRecordedPrecision
  inverse : (∀ column, arrow.toColumn = .ok column → column.logical.isNested = false →
    column.toArrow = .ok arrow) ↔ arrow.PrecisionRecorded
  foreign : arrow.PrecisionRecorded → (∀ column : ColumnType, column.toArrow ≠ .ok arrow) →
    (∃ column, arrow.toColumn = .ok column ∧ column.logical.isNested = true) ∨
      ∃ fault, arrow.toColumn = .error fault ∧ fault.kind = .unsupportedType
  refused : ∀ fault, arrow.toColumn = .error fault →
    ∀ name tree machine,
      SharedTable.openColumn name arrow tree machine = (.error fault, machine)

theorem read_backwards (arrow : ArrowType) : arrow.ReadBackwards where
  leaf := fun column stands leaf => toArrow_toColumn stands leaf
  inverse := by
    constructor
    · intro inverts
      by_contra unrecorded
      obtain ⟨column, stands, leaf⟩ := leaf_of_not_recorded unrecorded
      exact unrecorded (produced_iff.mp ⟨column, inverts column stands leaf⟩).1
    · intro recorded column stands leaf
      rw [toArrow_toColumn stands leaf, withRecordedPrecision_eq_iff.mpr recorded]
  foreign := by
    intro recorded foreign
    cases stands : arrow.toColumn with
    | error fault => exact .inr ⟨fault, rfl, toColumn_error stands ▸ rfl⟩
    | ok column =>
        cases nested : column.logical.isNested with
        | true => exact .inl ⟨column, rfl, nested⟩
        | false =>
            obtain ⟨made, produced⟩ := produced_iff.mpr ⟨recorded, column, stands, nested⟩
            exact absurd produced (foreign made)
  refused := by
    intro fault refused name tree machine
    have kind : SharedTable.columnType arrow = .error fault := by
      rw [SharedTable.columnType, refused]
      rfl
    cases tree
    rw [SharedTable.openColumn, kind]
    rfl

/-- A decimal with ten digits is read as a column of 128 bits, whose Arrow type has 38 digits. A
column that was shared with the former is opened with the latter. -/
theorem ten_digits_not_inverted :
    toColumn (.decimal128 10 2) = .ok ⟨.decimal128, -2⟩ ∧
      ColumnType.toArrow ⟨.decimal128, -2⟩ = .ok (.decimal128 38 2) ∧
      (∀ column : ColumnType, column.toArrow ≠ .ok (.decimal128 10 2)) ∧
      ∃ view owner, SharedTable.openColumn "c" (.decimal128 10 2) ⟨0, 0, none, none, []⟩
        Machine.initial = (.ok (view, owner), Machine.initial) ∧ view.type = ⟨.decimal128, -2⟩ := by
  refine ⟨rfl, rfl, fun column made => ?_, _, _, rfl, rfl⟩
  have recorded : (10 : UInt8) ∈ recordedPrecisions := (produced_iff.mp ⟨column, made⟩).1
  exact absurd recorded (by decide)

end ArrowType

end DeviceColumns
