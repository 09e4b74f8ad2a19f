import DeviceColumns.Proofs.Arrays.Built
import DeviceColumns.Proofs.Arrays.Conversion
import DeviceColumns.Session.Perform

/-!
Row counts of a table over any number of exports. A table is made of columns with one row count. An
export that is interrupted leaves the columns that it has converted without rows and the others as
they were, so from then on the columns need not have one row count; without such an export they do,
and every array that was made has it too.
-/

namespace DeviceColumns

set_option autoImplicit false

namespace Column.Converts

variable {resource : Resource} {columns : List Column} {nodes : List ArrayNode}
  {machine final : Machine}

theorem lengths (converts : Converts resource columns machine nodes final) :
    nodes.map ArrayNode.length = columns.map fun column => ArrayNode.word column.rows := by
  induction converts with
  | nil => rfl
  | cons first _ induction =>
      rw [List.map_cons, List.map_cons, induction]
      obtain ⟨_, rfl, _⟩ | ⟨_, _, _, _, rfl, _⟩ := toArray_ok first <;> rw [ArrayNode.length_make]

end Column.Converts

namespace Table

variable {table remaining : Table} {resource : Resource} {machine : Machine}
  {outcome : Except Error DeviceArray} {after : Machine}

/-- Columns without rows come first; from the first column with rows on, all have as many. -/
def Staggered (table : Table) : Prop :=
  table.columns.Pairwise fun earlier later => earlier.rows = 0 ∨ later.rows = earlier.rows

theorem Even.staggered (even : table.Even) : table.Staggered := by
  refine List.pairwise_of_forall_mem_list fun earlier before later behind => .inr ?_
  rw [even earlier before, even later behind]

theorem even_of_no_rows (none : ∀ column ∈ table.columns, column.rows = 0) : table.Even := by
  have first : table.rows = 0 := by
    cases columns : table.columns with
    | nil => simp [rows, columns]
    | cons column rest => simp [rows, columns, none column (by simp [columns])]
  exact fun column member => (none column member).trans first.symm

namespace Export

theorem staggered (exports : Export resource table machine outcome remaining after)
    (staggered : table.Staggered) : remaining.Staggered := by
  have emptied (columns : List Column) : ∀ column ∈ columns.map Column.emptied, column.rows = 0 := by
    simp [Column.emptied]
  cases exports with
  | refused => exact staggered
  | completed => exact (even_of_no_rows (emptied _)).staggered
  | @interrupted done column rest _ _ _ _ split =>
      refine List.pairwise_append.mpr ⟨?_, ?_, fun earlier before _ _ => .inl (emptied done _ before)⟩
      · have left : Staggered ⟨table.device, done.map Column.emptied⟩ :=
          (even_of_no_rows (emptied done)).staggered
        exact left
      · rw [Staggered, split] at staggered
        exact (List.pairwise_append.mp staggered).2.1

theorem even_iff (exports : Export resource table machine outcome remaining after)
    (even : table.Even) :
    remaining.Even ↔ ∀ fault, outcome = .error fault → remaining = table ∨ table.rows = 0 := by
  cases exports with
  | refused => exact ⟨fun _ _ _ => .inl rfl, fun _ => even⟩
  | completed => exact ⟨fun _ _ failed => (by cases failed), fun _ =>
      even_of_no_rows (by simp [Column.emptied])⟩
  | @interrupted done column rest _ _ _ _ split =>
      have inside : column ∈ table.columns := by simp [split]
      constructor
      · intro evenLeft _ _
        cases done with
        | nil => exact .inl (congrArg (Table.mk table.device) split.symm)
        | cons first others =>
            -- The first column has been emptied, so the one that was left has no rows either.
            have left : column.rows = 0 := evenLeft column (by simp)
            exact .inr ((even column inside).symm.trans left)
      · intro harmless
        obtain same | none := harmless _ rfl
        · exact same ▸ even
        · apply even_of_no_rows
          intro other member
          obtain emptied | kept := List.mem_append.mp member
          · obtain ⟨_, _, rfl⟩ := List.mem_map.mp emptied
            rfl
          · exact (even other (split ▸ List.mem_append_right done kept)).trans none

theorem children_length {exported : DeviceArray}
    (exports : Export resource table machine (.ok exported) remaining after) (even : table.Even) :
    ∀ child ∈ exported.array.children, child.length = exported.array.length := by
  cases exports with
  | completed converted =>
      intro child member
      have listed := List.mem_map_of_mem (f := ArrayNode.length) member
      rw [ArrayNode.make, ArrayNode.children, converted.lengths] at listed
      obtain ⟨column, inside, same⟩ := List.mem_map.mp listed
      rw [ArrayNode.length_make, ← same, even column inside]

end Export

/-- One export of a table: what it was before, what came of it, and what is left of it. -/
structure Call where
  before : Table
  outcome : Except Error DeviceArray
  remaining : Table

/-- The export went well, or failed without a change to the table, or the table had no rows. -/
def Call.Harmless (call : Call) : Prop :=
  ∀ fault, call.outcome = .error fault → call.remaining = call.before ∨ call.before.rows = 0

theorem Call.harmless_of_ok {call : Call} (went : call.outcome.isOk = true) : call.Harmless := by
  intro fault failed
  rw [failed] at went
  contradiction

/-- A table that was made of columns and exported any number of times, the latest first, each time
in whatever state memory was by then. -/
inductive History : Table → List Call → Prop where
  | made {device : Device} {columns : List Column} {machine after : Machine} {table : Table}
      (built : ofColumns device columns machine = (.ok table, after)) : History table []
  | exported {table : Table} {calls : List Call} (history : History table calls)
      (resource : Resource) (machine : Machine) :
      History (table.toDeviceArray resource machine).2.1
        (⟨table, (table.toDeviceArray resource machine).1,
          (table.toDeviceArray resource machine).2.1⟩ :: calls)

namespace History

variable {calls : List Call}

theorem staggered (history : History table calls) : table.Staggered := by
  induction history with
  | made built => exact (ofColumns_even built).staggered
  | exported _ resource machine induction =>
      exact (toDeviceArray_export _ resource machine).staggered induction

theorem even_of_each (history : History table calls) (each : ∀ call ∈ calls, call.remaining.Even) :
    table.Even := by
  cases history with
  | made built => exact ofColumns_even built
  | exported => exact each _ List.mem_cons_self

/-- Columns of a table share one row count as long as every export is harmless, and not longer.
Until then the children of every array that was returned are as long as the array. -/
theorem rows_shared_iff (history : History table calls) :
    table.Staggered ∧
    ((∀ call ∈ calls, call.remaining.Even) ↔ ∀ call ∈ calls, call.Harmless) ∧
    ((∀ call ∈ calls, call.Harmless) → table.Even ∧
      ∀ call ∈ calls, ∀ exported, call.outcome = .ok exported →
        ∀ child ∈ exported.array.children, child.length = exported.array.length) := by
  refine ⟨history.staggered, ?_⟩
  induction history with
  | made built => simpa using ofColumns_even built
  | @exported table calls history resource machine induction =>
      have exports := toDeviceArray_export table resource machine
      obtain ⟨iff, lengths⟩ := induction
      simp only [List.forall_mem_cons]
      refine ⟨⟨fun ⟨left, each⟩ => ?_, fun ⟨here, others⟩ => ?_⟩, fun ⟨here, others⟩ => ?_⟩
      · have even := history.even_of_each each
        exact ⟨(exports.even_iff even).mp left, iff.mp each⟩
      · have even := (lengths others).1
        exact ⟨(exports.even_iff even).mpr here, iff.mpr others⟩
      · obtain ⟨even, earlier⟩ := lengths others
        refine ⟨(exports.even_iff even).mpr here, fun exported made => ?_, earlier⟩
        rw [made] at exports
        exact exports.children_length even

end History

def pairRequests : List Request := [
  .values "a" ⟨.int32, 0⟩ .i32 [1, 2] none "plain",
  .booleans "b" [true, false] none "plain"]

def roomy : Session := (Session.runFrom pairRequests .initial).2

/-- A raw block takes up what is left of the arena. -/
def cramped : Session := (roomy.perform (.allocate "filler" 1048256 "plain")).2

/-- A column whose buffer can be handed over, and one that has to be converted into new memory. -/
def pair : Table :=
  ⟨.host, [⟨⟨.int32, 0⟩, 2, some ⟨some 0x100000000000, 8, .device⟩, none, 0, []⟩,
    ⟨⟨.bool8, 0⟩, 2, some ⟨some 0x100000000080, 2, .device⟩, none, 0, []⟩]⟩

example : ["a", "b"].filterMap (fun name => (roomy.find? name).bind Object.column?) =
    pair.columns := by rfl

theorem pair_made : History pair [] :=
  .made (show ofColumns .host pair.columns roomy.machine = (.ok pair, roomy.machine) from rfl)

theorem rows_shared_iff_twice :
    ∃ table calls, History table calls ∧ calls.length = 2 ∧ table.Even ∧
      ∀ call ∈ calls, ∀ exported, call.outcome = .ok exported →
        ∀ child ∈ exported.array.children, child.length = exported.array.length := by
  have history := (pair_made.exported .device roomy.machine).exported .device roomy.machine
  refine ⟨_, _, history, rfl, history.rows_shared_iff.2.2 ?_⟩
  exact List.forall_mem_cons.mpr ⟨Call.harmless_of_ok (by decide +kernel),
    List.forall_mem_singleton.mpr (Call.harmless_of_ok (by decide +kernel))⟩

/-- The export in the cramped arena fails at the second column, after the first has been emptied. If
memory is free again by the next export, the array that this one makes is shorter than its second
child. -/
theorem rows_not_shared :
    ∃ table calls, History table calls ∧ table.columns.map Column.rows = [0, 2] ∧
      (table.toDeviceArray .device roomy.machine).1.toOption.map (fun exported =>
        (exported.array.length, exported.array.children.map ArrayNode.length)) =
          some (0, [0, 2]) := by
  refine ⟨_, _, pair_made.exported .device cramped.machine, ?_, ?_⟩
  · decide +kernel
  · decide +kernel

end Table

end DeviceColumns
