import DeviceColumns.Arrow.Conversion
import Mathlib.Tactic.SplitIfs

/-!
What a conversion can do, said once. A column becomes an array with its row count; a table is
converted from the first column on, until all columns are arrays or one of them cannot be made. The
columns before that one have then been emptied, and it and those behind it are as they were.
-/

namespace DeviceColumns

set_option autoImplicit false

open DeviceColumns.Action

namespace ArrayNode

theorem length_held (length nullCount : Int) (slots : List (Option Buffer))
    (children : List ArrayNode) (event : Option Nat) :
    (held length nullCount slots children event).length = length := rfl

theorem length_make (rows nullCount : Nat) (slots : List (Option Buffer))
    (children : List ArrayNode) (event : Option Nat) :
    (make rows nullCount slots children event).length = word rows := by
  rw [make, length_held]

theorem nullCount_held (length nullCount : Int) (slots : List (Option Buffer))
    (children : List ArrayNode) (event : Option Nat) :
    (held length nullCount slots children event).nullCount = nullCount := rfl

theorem nullCount_make (rows nullCount : Nat) (slots : List (Option Buffer))
    (children : List ArrayNode) (event : Option Nat) :
    (make rows nullCount slots children event).nullCount = word nullCount := by
  rw [make, nullCount_held]

end ArrayNode

namespace Column

variable {column : Column} {resource : Resource} {machine after : Machine} {node : ArrayNode}

/-- A column becomes an array of nulls, or one with its mask and its data, converted or not. What
the array does not take over is freed. -/
theorem toArray_ok (made : column.toArray resource machine = (.ok node, after)) :
    (column.type.logical = .empty ∧ node = .make column.rows column.rows [] [] none ∧
      after = column.free machine) ∨
    (column.type.logical ≠ .empty ∧ ∃ converted middle,
      column.convertedData resource machine = (.ok converted, middle) ∧
      node = .make column.rows column.nullCount
        [slot column.mask, slot (converted <|> column.data)] [] none ∧
      after = Buffer.freeAll
        ((if converted.isSome then column.data.toList else []) ++ buffersOfAll column.children)
        middle) := by
  unfold toArray at made
  obtain ⟨_, _, checked, chosen⟩ := bind_eq_ok made
  obtain ⟨-, rfl⟩ := ofExcept_eq_ok checked
  split_ifs at chosen with none
  · cases chosen
    exact .inl ⟨none, rfl, rfl⟩
  · obtain ⟨converted, middle, ran, returned⟩ := bind_eq_ok chosen
    cases returned
    exact .inr ⟨none, converted, middle, mapFault_eq_ok ran, rfl, rfl⟩

/-- The columns were converted one after the other, beginning with the first machine and ending
with the last. -/
inductive Converts (resource : Resource) : List Column → Machine → List ArrayNode → Machine → Prop where
  | nil (machine : Machine) : Converts resource [] machine [] machine
  | cons {column : Column} {rest : List Column} {node : ArrayNode} {nodes : List ArrayNode}
      {machine middle final : Machine}
      (first : column.toArray resource machine = (.ok node, middle))
      (others : Converts resource rest middle nodes final) :
      Converts resource (column :: rest) machine (node :: nodes) final

theorem convertAll_cases {columns : List Column} {conversion : Conversion}
    (ran : convertAll resource columns machine = (conversion, after)) :
    (conversion.fault = none ∧ conversion.columns = columns.map emptied ∧
      Converts resource columns machine conversion.nodes after) ∨
    (∃ done column rest fault middle, columns = done ++ column :: rest ∧
      conversion.fault = some fault ∧ conversion.columns = done.map emptied ++ column :: rest ∧
      Converts resource done machine conversion.nodes middle ∧
      column.toArray resource middle = (.error fault, after)) := by
  induction columns generalizing machine conversion with
  | nil =>
      cases ran
      exact .inl ⟨rfl, rfl, .nil _⟩
  | cons column rest induction =>
      rw [convertAll] at ran
      rcases first : column.toArray resource machine with ⟨fault | node, middle⟩
      · rw [first] at ran
        cases ran
        exact .inr ⟨[], column, rest, fault, _, rfl, rfl, rfl, .nil _, first⟩
      · rw [first] at ran
        rcases later : convertAll resource rest middle with ⟨others, final⟩
        simp only [later] at ran
        cases ran
        obtain ⟨none, emptied, converted⟩ | ⟨done, stuck, behind, fault, last, rfl, fails, kept,
          converted, refused⟩ := induction later
        · exact .inl ⟨none, congrArg _ emptied, .cons first converted⟩
        · exact .inr ⟨column :: done, stuck, behind, fault, last, rfl, fails, congrArg _ kept,
            .cons first converted, refused⟩

end Column

namespace Table

variable {table : Table} {resource : Resource} {machine : Machine}

/-- How an export can end: refused before any column is touched, interrupted at a column that cannot
be converted, or completed. -/
inductive Export (resource : Resource) (table : Table) (machine : Machine) :
    Except Error DeviceArray → Table → Machine → Prop where
  | refused {fault : Error} (unfit : checkArrays table.columns = .error fault) :
      Export resource table machine (.error fault) table machine
  | interrupted {done : List Column} {column : Column} {rest : List Column} {fault : Error}
      {nodes : List ArrayNode} {middle after : Machine}
      (split : table.columns = done ++ column :: rest)
      (converted : Column.Converts resource done machine.createEvent.2 nodes middle)
      (stuck : column.toArray resource middle = (.error fault, after)) :
      Export resource table machine (.error fault)
        ⟨table.device, done.map Column.emptied ++ column :: rest⟩ (ArrayNode.freeAll nodes after)
  | completed {nodes : List ArrayNode} {after : Machine}
      (converted : Column.Converts resource table.columns machine.createEvent.2 nodes after) :
      Export resource table machine
        (.ok ⟨.make table.rows 0 [none] nodes (some machine.createEvent.1), table.device⟩)
        ⟨table.device, table.columns.map Column.emptied⟩ after

theorem toDeviceArray_export (table : Table) (resource : Resource) (machine : Machine) :
    Export resource table machine (table.toDeviceArray resource machine).1
      (table.toDeviceArray resource machine).2.1 (table.toDeviceArray resource machine).2.2 := by
  unfold toDeviceArray
  cases unfit : checkArrays table.columns with
  | error fault => exact .refused unfit
  | ok done =>
      rcases ran : Column.convertAll resource table.columns machine.createEvent.2 with
        ⟨⟨nodes, columns, fault⟩, after⟩
      simp only [ran]
      obtain ⟨rfl, rfl, converted⟩ | ⟨done, column, rest, fault, middle, split, rfl, rfl, converted,
        stuck⟩ := Column.convertAll_cases ran
      · exact .completed converted
      · exact .interrupted split converted stuck

end Table

end DeviceColumns
