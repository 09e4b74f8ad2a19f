import DeviceColumns.Column.Basic

/-!
What belongs to a column. Its buffers and its view are defined along its children; here they are
told apart into the parts of the column itself and those of its children.
-/

namespace DeviceColumns.Column

set_option autoImplicit false

variable {column : Column}

theorem buffers_eq (column : Column) : column.buffers =
    column.data.toList ++ column.mask.toList ++ buffersOfAll column.children := by
  cases column
  rfl

theorem data_inside (column : Column) : ∀ buffer ∈ column.data, buffer ∈ column.buffers := by
  intro buffer here
  simp [buffers_eq, Option.mem_def.mp here]

theorem mask_inside (column : Column) : ∀ buffer ∈ column.mask, buffer ∈ column.buffers := by
  intro buffer here
  simp [buffers_eq, Option.mem_def.mp here]

theorem buffers_subset {columns : List Column} {buffer : Buffer} (member : column ∈ columns)
    (inside : buffer ∈ column.buffers) : buffer ∈ buffersOfAll columns := by
  induction columns with
  | nil => exact absurd member List.not_mem_nil
  | cons first rest induction =>
      obtain rfl | behind := List.mem_cons.mp member
      · exact List.mem_append_left _ inside
      · exact List.mem_append_right _ (induction behind)

theorem child_inside {child : Column} (member : child ∈ column.children) :
    ∀ buffer ∈ child.buffers, buffer ∈ column.buffers := by
  intro buffer inside
  rw [buffers_eq]
  exact List.mem_append_right _ (buffers_subset member inside)

theorem view_eq (column : Column) : column.view = ⟨column.type, column.rows,
    column.data.bind Buffer.address, column.mask.bind Buffer.address, column.nullCount,
    viewAll column.children⟩ := by
  cases column
  rfl

theorem viewAll_eq (columns : List Column) : viewAll columns = columns.map view := by
  induction columns with
  | nil => rfl
  | cons column rest induction => rw [viewAll, induction, List.map_cons]

end DeviceColumns.Column
