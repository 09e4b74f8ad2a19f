import DeviceColumns.Proofs.Arrays.RowCounts
import DeviceColumns.Proofs.Custody.Runs
import DeviceColumns.Proofs.Custody.Warnings
import DeviceColumns.Proofs.Isolation.Confinement

/-!
What a failed export leaves behind. A table that cannot be exported at all is refused before
anything happens. Otherwise the columns before the one that fails have been emptied and their blocks
are gone; all other blocks are there as before, and none are new, as whatever was made for the
export has been given back. Custody says which blocks are live afterwards, confinement that those
hold what they held.
-/

namespace DeviceColumns

set_option autoImplicit false

open DeviceColumns.Action

theorem Heap.stored?_eq_none {heap : Heap} {base : Nat} (dead : ¬heap.isLive base = true) :
    heap.stored? base = none := by
  rw [stored?, Option.map_eq_none_iff]
  simpa [isLive] using dead

namespace Custody

variable {scope : Scope} {count more : Nat} {held : Holdings} {before after : Machine}
  {given left : List Buffer} {base : Nat}

/-- Blocks that are live after an exchange of buffers for some of them are not new. -/
theorem older (custody : Custody scope count (held + .ofBuffers given) before)
    (later : Custody scope more (held + .ofBuffers left) after) (careful : scope.careful)
    (within : ∀ base ∈ Buffer.bases left, base ∈ Buffer.bases given)
    (live : after.heap.isLive base = true) : base < before.heap.next := by
  have early (place : Nat) (present : before.heap.isLive place = true) :
      place < before.heap.next := by
    obtain ⟨block, member, rfl⟩ := Heap.block_of_isLive present
    exact custody.heap.base_lt member
  by_cases raw : base ∈ scope.raw
  · exact (custody.owned careful).rawBelow base raw
  · obtain other | own := later.held_of_live careful live raw
    · obtain ⟨span, member, rfl⟩ := Multiset.mem_map.mp other
      have whole : span ∈ spansOf (held + Holdings.ofBuffers given).1 := by
        rw [Holdings.fst_add_ofBuffers, spansOf_add]
        exact Multiset.mem_add.mpr (.inl member)
      have present := ((custody.owned careful).span_mem whole).1
      exact early span.1 (Heap.isLive_iff.mpr ⟨span, present, rfl⟩)
    · exact early base (custody.live_of_held careful (within base own)).1

/-- When some of the buffers are left and nothing else was made, the blocks of the others are gone,
and all blocks that are left hold what they held. -/
theorem stored?_of_exchange (custody : Custody scope count (held + .ofBuffers given) before)
    (later : Custody scope more (held + .ofBuffers left) after) (careful : scope.careful)
    (within : ∀ base ∈ Buffer.bases left, base ∈ Buffer.bases given)
    (since : before.heap.Since {base | base ∈ Buffer.bases given} after.heap) (base : Nat) :
    after.heap.stored? base =
      if base ∈ Buffer.bases given ∧ base ∉ Buffer.bases left then none
      else before.heap.stored? base := by
  by_cases live : after.heap.isLive base = true
  · have still : ¬(base ∈ Buffer.bases given ∧ base ∉ Buffer.bases left) := by
      rintro ⟨member, gone⟩
      exact gone ((custody.live_iff later careful member).mp live)
    have old := custody.older later careful within live
    obtain ⟨block, member, rfl⟩ := Heap.block_of_isLive live
    have earlier := since.had_block custody.heap member old
    rw [if_neg still, later.heap.stored?_base member, custody.heap.stored?_base earlier]
  · rw [Heap.stored?_eq_none live]
    split_ifs with gone
    · rfl
    · by_contra stored
      have present : before.heap.isLive base = true := by
        by_contra dead
        exact stored (Heap.stored?_eq_none dead).symm
      by_cases member : base ∈ Buffer.bases given
      · have kept : base ∈ Buffer.bases left := by
          by_contra missing
          exact gone ⟨member, missing⟩
        exact live ((custody.live_iff later careful member).mpr kept)
      · obtain ⟨block, inside, rfl⟩ := Heap.block_of_isLive present
        have lasting := since.keeps_block custody.heap inside member
        exact live (Heap.isLive_iff.mpr ⟨_, Heap.WellFormed.span_mem lasting, rfl⟩)

end Custody

namespace Column

theorem buffersOfAll_append (first second : List Column) :
    buffersOfAll (first ++ second) = buffersOfAll first ++ buffersOfAll second := by
  induction first with
  | nil => rfl
  | cons column rest induction =>
      rw [List.cons_append, buffersOfAll, buffersOfAll, induction, List.append_assoc]

theorem buffersOfAll_emptied (columns : List Column) :
    buffersOfAll (columns.map emptied) = [] := by
  induction columns with
  | nil => rfl
  | cons column rest induction =>
      rw [List.map_cons, buffersOfAll, emptied_buffers, induction, List.append_nil]

end Column

namespace Table

variable {table remaining : Table} {resource : Resource} {machine after : Machine} {fault : Error}

theorem Export.interruption (exports : Export resource table machine (.error fault) remaining after)
    (fit : checkArrays table.columns = .ok ()) :
    ∃ done column rest, table.columns = done ++ column :: rest ∧
      (∃ nodes middle left, Column.Converts resource done machine.createEvent.2 nodes middle ∧
        column.toArray resource middle = (.error fault, left)) ∧
      remaining = ⟨table.device, done.map Column.emptied ++ column :: rest⟩ := by
  cases exports with
  | refused unfit =>
      rw [unfit] at fit
      contradiction
  | interrupted split converted stuck =>
      exact ⟨_, _, _, split, ⟨_, _, _, converted, stuck⟩, rfl⟩

theorem checkArrays_ok_iff {columns : List Column} : checkArrays columns = .ok () ↔
    ∀ column ∈ columns, Column.checkArray column.type.logical = .ok () := by
  induction columns with
  | nil => simp [checkArrays]
  | cons column rest induction =>
      rw [List.forall_mem_cons, ← induction, checkArrays]
      cases Column.checkArray column.type.logical with
      | error cause => simp [bind, Except.bind]
      | ok done => simp [bind, Except.bind]

theorem toDeviceArray_unfit (unfit : ¬checkArrays table.columns = .ok ()) (resource : Resource)
    (machine : Machine) :
    ∃ cause, table.toDeviceArray resource machine = (.error cause, table, machine) := by
  unfold toDeviceArray
  cases checked : checkArrays table.columns with
  | error cause => exact ⟨cause, rfl⟩
  | ok done => exact absurd checked unfit

/-- An export was interrupted at a column. Those before it are emptied and their blocks, which were
live until then, are gone; it and those behind it are as they were, and so is all other memory. No
block was freed twice. -/
structure Interrupted (table : Table) (resource : Resource) (before : Machine) (fault : Error)
    (remaining : Table) (after : Machine) (done : List Column) (column : Column)
    (rest : List Column) : Prop where
  split : table.columns = done ++ column :: rest
  stuck : ∃ nodes middle left, Column.Converts resource done before.createEvent.2 nodes middle ∧
    column.toArray resource middle = (.error fault, left)
  remaining : remaining = ⟨table.device, done.map Column.emptied ++ column :: rest⟩
  memory : ∀ base, after.heap.stored? base =
    if base ∈ Buffer.bases (Column.buffersOfAll done) then none else before.heap.stored? base
  owned : ∀ base ∈ Buffer.bases (Column.buffersOfAll done), before.heap.isLive base = true
  apart : ∀ base ∈ Buffer.bases (Column.buffersOfAll (column :: rest)),
    base ∉ Buffer.bases (Column.buffersOfAll done) ∧ after.heap.isLive base = true
  once : (Buffer.bases (Column.buffersOfAll done)).Nodup
  tidy : after.Tidy before.log

variable {scope : Scope} {count : Nat} {held : Holdings}

/-- Whatever an export fails at, all that is held afterwards is what is left of the table, nothing was
freed in vain, and old blocks that are not the table's were spared. -/
theorem toDeviceArray_failed (sound : resource.Sound count) (careful : scope.careful)
    (custody : Custody scope count (held + .ofBuffers (Column.buffersOfAll table.columns)) machine)
    (failed : table.toDeviceArray resource machine = (.error fault, remaining, after)) :
    Custody scope count (held + .ofBuffers (Column.buffersOfAll remaining.columns)) after ∧
      after.Tidy machine.log ∧
      machine.heap.Since {base | base ∈ Buffer.bases (Column.buffersOfAll table.columns)}
        after.heap := by
  have orderly : Orderly scope count machine.log
      (held + .ofBuffers (Column.buffersOfAll table.columns)) machine :=
    ⟨custody, fun warning logged => .inl logged⟩
  have kept := toDeviceArray_custody (Orderly.custodial careful) sound held orderly
  have confined : Confinement machine.heap
      {base | base ∈ Buffer.bases (Column.buffersOfAll table.columns)}
      (0 + .ofBuffers (Column.buffersOfAll table.columns)) machine :=
    ⟨.refl _ _, Holdings.Loose.alone fun buffer member base place =>
      .inr (Buffer.mem_bases.mpr ⟨buffer, member, place⟩)⟩
  have spared := @toDeviceArray_custody _ _ _ (Confinement.custodial custody.heap _) resource
    trivial 0 table machine confined
  rw [failed] at kept spared
  have left := kept.custody
  simp only [Holdings.ofBuffers_nil, add_zero] at left
  exact ⟨left, kept.tidy, spared.since⟩

theorem interrupted (sound : resource.Sound count) (careful : scope.careful)
    (custody : Custody scope count (held + .ofBuffers (Column.buffersOfAll table.columns)) machine)
    (fit : checkArrays table.columns = .ok ())
    (failed : table.toDeviceArray resource machine = (.error fault, remaining, after)) :
    ∃ done column rest,
      table.Interrupted resource machine fault remaining after done column rest := by
  have exports := toDeviceArray_export table resource machine
  obtain ⟨later, tidy, since⟩ := toDeviceArray_failed sound careful custody failed
  rw [failed] at exports
  obtain ⟨done, column, rest, split, stuck, rfl⟩ := exports.interruption fit
  rw [Column.buffersOfAll_append, Column.buffersOfAll_emptied, List.nil_append] at later
  have parts : Buffer.bases (Column.buffersOfAll table.columns) =
      Buffer.bases (Column.buffersOfAll done) ++
        Buffer.bases (Column.buffersOfAll (column :: rest)) := by
    rw [split, Column.buffersOfAll_append, Buffer.bases_append]
  have distinct := custody.bases_nodup careful
  rw [parts] at distinct
  obtain ⟨once, -, disjoint⟩ := List.nodup_append.mp distinct
  have within (base : Nat) (member : base ∈ Buffer.bases (Column.buffersOfAll (column :: rest))) :
      base ∈ Buffer.bases (Column.buffersOfAll table.columns) := by
    rw [parts]
    exact List.mem_append_right _ member
  have gone (base : Nat) : base ∈ Buffer.bases (Column.buffersOfAll table.columns) ∧
      base ∉ Buffer.bases (Column.buffersOfAll (column :: rest)) ↔
        base ∈ Buffer.bases (Column.buffersOfAll done) := by
    rw [parts, List.mem_append]
    constructor
    · rintro ⟨first | second, missing⟩
      · exact first
      · exact absurd second missing
    · exact fun first => ⟨.inl first, fun second => disjoint base first base second rfl⟩
  have memory (base : Nat) : after.heap.stored? base =
      if base ∈ Buffer.bases (Column.buffersOfAll done) then none
      else machine.heap.stored? base := by
    rw [custody.stored?_of_exchange later careful within since base]
    exact if_congr (gone base) rfl rfl
  have owned (base : Nat) (first : base ∈ Buffer.bases (Column.buffersOfAll done)) :
      machine.heap.isLive base = true :=
    (custody.live_of_held careful ((gone base).mpr first).1).1
  have apart (base : Nat) (second : base ∈ Buffer.bases (Column.buffersOfAll (column :: rest))) :
      base ∉ Buffer.bases (Column.buffersOfAll done) ∧ after.heap.isLive base = true := by
    constructor
    · exact fun first => disjoint base first base second rfl
    · exact (later.live_of_held careful second).1
  exact ⟨done, column, rest, split, stuck, rfl, memory, owned, apart, once, tidy⟩

end Table

namespace Session

variable {session : Session} {raw : List Nat} {touched : List LedgerId} {subject via : String}
  {table remaining : Table} {resource : Resource} {fault : Error} {after : Machine}

/-- What the failed export of a table leaves: everything, if some column cannot be exported, and
otherwise what was not converted before the column that failed. -/
theorem CarefulRun.failed_export (run : CarefulRun session raw touched)
    (found : session.find? subject = some (.table table))
    (provides : (session.find? via).bind Object.resource? = some resource)
    (failed : table.toDeviceArray resource session.machine = (.error fault, remaining, after)) :
    ((∃ column ∈ table.columns, Column.checkArray column.type.logical ≠ .ok ()) →
      remaining = table ∧ after = session.machine) ∧
    ((∀ column ∈ table.columns, Column.checkArray column.type.logical = .ok ()) →
      ∃ done column rest,
        table.Interrupted resource session.machine fault remaining after done column rest) := by
  constructor
  · rintro ⟨column, member, unfit⟩
    have refused : ¬Table.checkArrays table.columns = .ok () :=
      fun fit => unfit (Table.checkArrays_ok_iff.mp fit column member)
    obtain ⟨cause, outcome⟩ := Table.toDeviceArray_unfit refused resource session.machine
    rw [outcome] at failed
    cases failed
    exact ⟨rfl, rfl⟩
  · intro fit
    obtain ⟨count, sound⟩ := run.sound
    have custody : Custody ⟨raw, touched, True⟩ count
        ((session.forget subject).holdings + .ofBuffers (Column.buffersOfAll table.columns))
        session.machine := by
      apply sound.custody.of_eq
      rw [zero_add, holdingsWithout, holdings_of_find? sound.distinct found, add_comm]
      rfl
    obtain ⟨object, named, selected⟩ := Option.bind_eq_some_iff.mp provides
    exact Table.interrupted (sound.object_sound named resource selected) trivial custody
      (Table.checkArrays_ok_iff.mpr fit) failed

/-- The table of a column that can be handed over and one that has to be converted, in an arena that
a raw block has filled up. -/
def clogged : Session :=
  (Table.pairRequests ++ [Request.table "t" ["a", "b"],
    Request.allocate "filler" 1048256 "plain"]).foldl
      (fun session request => (session.perform request).2) .initial

theorem CarefulRun.failed_export_clogged :
    ∃ fault remaining after done column rest,
      Table.pair.toDeviceArray .device clogged.machine = (.error fault, remaining, after) ∧
      Table.pair.Interrupted .device clogged.machine fault remaining after done column rest ∧
      remaining.columns.map Column.rows = [0, 2] := by
  have values := CarefulRun.initial.step (.values "a" ⟨.int32, 0⟩ .i32 [1, 2] none "plain")
    (by decide)
  have booleans := values.step (.booleans "b" [true, false] none "plain") (by decide)
  have table := booleans.step (.table "t" ["a", "b"]) (by decide)
  have run : CarefulRun clogged _ _ :=
    table.step (.allocate "filler" 1048256 "plain") (by decide)
  have found : clogged.find? "t" = some (.table Table.pair) := rfl
  have provides : (clogged.find? "plain").bind Object.resource? = some .device := rfl
  have fit : ∀ column ∈ Table.pair.columns, Column.checkArray column.type.logical = .ok () :=
    Table.checkArrays_ok_iff.mp rfl
  have fails : (Table.pair.toDeviceArray .device clogged.machine).1.isOk = false := by
    decide +kernel
  have left : (Table.pair.toDeviceArray .device clogged.machine).2.1.columns.map Column.rows =
      [0, 2] := by
    decide +kernel
  rcases ran : Table.pair.toDeviceArray .device clogged.machine with
    ⟨fault | exported, remaining, after⟩
  · rw [ran] at left
    obtain ⟨done, column, rest, interrupted⟩ := (run.failed_export found provides ran).2 fit
    exact ⟨fault, remaining, after, done, column, rest, rfl, interrupted, left⟩
  · rw [ran] at fails
    contradiction

end Session

end DeviceColumns
