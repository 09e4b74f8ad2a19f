import DeviceColumns.Proofs.Sharing.Coverage
import DeviceColumns.Share.Export

/-!
A buffer that is shared through its block's handle is found again. The handle carries base and size
of the block, so as long as a block with these lives, opening it gives the base, and the offset leads
back to the address.
-/

namespace DeviceColumns

set_option autoImplicit false

open DeviceColumns.Action

namespace Handle

theorem take_drop_middle (before middle after : Bytes) {offset width : Nat}
    (skipped : before.length = offset) (long : middle.length = width) :
    ((before ++ middle ++ after).drop offset).take width = middle := by
  rw [List.append_assoc, ← skipped, List.drop_left, ← long, List.take_left]

theorem issue_magic (base size : Nat) : (issue base size).bytes.take 8 = magic := by
  have front (rest : Bytes) : (magic ++ rest).take magic.length = magic := List.take_left
  simp only [issue, List.append_assoc]
  exact front _

theorem issue_process (base size : Nat) : (issue base size).process = processId := by
  have field : ((issue base size).bytes.drop 8).take 4 = Bytes.ofNat 4 processId := by
    simp only [issue, List.append_assoc]
    rw [← List.append_assoc]
    exact take_drop_middle _ _ _ rfl (Bytes.length_ofNat _ _)
  rw [process, number, field, Bytes.toNat_ofNat]
  rfl

theorem issue_base {base : Nat} (bounded : base < 2 ^ 64) (size : Nat) :
    (issue base size).base = base := by
  have field : ((issue base size).bytes.drop 12).take 8 = Bytes.ofNat 8 base := by
    simp only [issue, List.append_assoc]
    rw [← List.append_assoc, ← List.append_assoc]
    exact take_drop_middle _ _ _ (by simp [magic]) (Bytes.length_ofNat _ _)
  have word : base < 256 ^ 8 := bounded
  rw [Handle.base, number, field, Bytes.toNat_ofNat, Nat.mod_eq_of_lt word]

theorem issue_size {size : Nat} (bounded : size < 2 ^ 64) (base : Nat) :
    (issue base size).size = size := by
  have field : ((issue base size).bytes.drop 20).take 8 = Bytes.ofNat 8 size :=
    take_drop_middle (magic ++ Bytes.ofNat 4 processId ++ Bytes.ofNat 8 base) _ _
      (by simp [magic]) (Bytes.length_ofNat _ _)
  have word : size < 256 ^ 8 := bounded
  rw [Handle.size, number, field, Bytes.toNat_ofNat, Nat.mod_eq_of_lt word]

theorem ofBytes?_bytes (handle : Handle) : ofBytes? handle.bytes = .ok handle := by
  rw [ofBytes?, dif_pos handle.length_eq]

end Handle

namespace Heap

variable {heap later : Heap}

/-- The address belongs to a live block, which also holds `length` bytes from there on. -/
def Contains (heap : Heap) (address length : Nat) : Prop :=
  ∃ block ∈ heap.blocks, (block.base = address ∨ block.holds address) ∧
    address + length ≤ block.base + block.size

/-- The block that the address belongs to lives on, where it was and as large as it was. -/
def Keeps (heap later : Heap) (address : Nat) : Prop :=
  ∀ block ∈ heap.blocks, block.base = address ∨ block.holds address → block.span ∈ later.spans

instance (heap : Heap) (address length : Nat) : Decidable (heap.Contains address length) :=
  inferInstanceAs (Decidable (∃ block ∈ heap.blocks, _ ∧ _))

instance (heap later : Heap) (address : Nat) : Decidable (heap.Keeps later address) :=
  inferInstanceAs (Decidable (∀ block ∈ heap.blocks, _ → _))

/-- What comes of mapping the block that the address belongs to. -/
def mapping? (heap : Heap) (address : Nat) : Option Mapping :=
  (heap.blockAt? address).map fun block => ⟨block.base⟩

theorem WellFormed.bounded (formed : heap.WellFormed) {block : Block} (live : block ∈ heap.blocks) :
    block.base + block.size < 2 ^ 64 :=
  Nat.lt_of_le_of_lt (formed.addressable live) (by decide)

theorem WellFormed.issue_base (formed : heap.WellFormed) {block : Block}
    (live : block ∈ heap.blocks) : (Handle.issue block.base block.size).base = block.base :=
  Handle.issue_base (Nat.lt_of_le_of_lt (Nat.le_add_right _ _) (formed.bounded live)) block.size

theorem check_issue (formed : later.WellFormed) {block : Block} (live : block ∈ later.blocks) :
    (Handle.issue block.base block.size).check later = .ok () := by
  have bounded := formed.bounded live
  simp only [Handle.check, Handle.issue_magic, Handle.issue_process, formed.issue_base live,
    Handle.issue_size (Nat.lt_of_le_of_lt (Nat.le_add_left _ _) bounded),
    formed.blockFrom?_base live]
  simp

/-- An address is reached through the handle of the block that it belongs to. -/
theorem WellFormed.handleAt_eq (formed : heap.WellFormed) {block : Block} {address : Nat}
    (live : block ∈ heap.blocks) (belongs : block.base = address ∨ block.holds address) :
    heap.handleAt address = .ok ⟨.issue block.base block.size, address - block.base⟩ := by
  simp only [handleAt, addressRange, formed.blockAt?_eq live belongs, issueHandle, bind,
    Except.bind, formed.blockFrom?_base live]
  rfl

end Heap

/-- The buffer is described whatever is asked of its memory: by the handle of its block, the offset
in it, and its size. -/
theorem View.describe_eq {heap : Heap} (formed : heap.WellFormed) {block : Block} {address : Nat}
    (live : block ∈ heap.blocks) (belongs : block.base = address ∨ block.holds address)
    (strict : Bool) (size : Nat) :
    View.describe heap strict address size =
      .ok ⟨(Handle.issue block.base block.size).bytes, UInt64.ofNat (address - block.base),
        UInt64.ofNat size⟩ := by
  have kind : heap.memoryKind address = .device := by
    rw [Heap.memoryKind, formed.blockAt?_eq live belongs]
    rfl
  simp [View.describe, kind, formed.handleAt_eq live belongs]

namespace SharedTable

variable {heap later : Heap}

/-- The action succeeds with a known outcome wherever the heap is this one, and leaves the heap as it
is. -/
abbrev Succeeds {Fault Value : Type} (heap : Heap) (act : Action Machine Fault Value)
    (expected : Value) : Prop :=
  Triple (On heap) act (fun value machine => value = expected ∧ On heap machine) fun _ => False

namespace Succeeds

variable {Fault Other Value Next : Type} {act : Action Machine Fault Value}
  {next : Value → Action Machine Fault Next} {value : Value} {result : Next}

theorem pure (value : Value) : Succeeds heap (Pure.pure value : Action Machine Fault Value) value :=
  Triple.pure fun _ same => ⟨rfl, same⟩

theorem ofExcept {outcome : Except Fault Value} (known : outcome = .ok value) :
    Succeeds heap (Action.ofExcept outcome) value := by
  intro machine same
  rw [known]
  exact ⟨rfl, same⟩

theorem bind (first : Succeeds heap act value) (second : Succeeds heap (next value) result) :
    Succeeds heap (act >>= next) result := by
  apply Triple.bindFact first
  intro found equal
  rw [equal]
  exact second

theorem mapFault (spec : Succeeds heap act value) (rename : Fault → Other) :
    Succeeds heap (act.mapFault rename) value :=
  Triple.mapFault spec

theorem undoOnFailure (spec : Succeeds heap act value) (undo : Machine → Machine) :
    Succeeds heap (act.undoOnFailure undo) value :=
  Triple.undoOnFailure spec fun _ impossible => impossible

end Succeeds

theorem openHandle_issue (formed : later.WellFormed) {block : Block}
    (live : block ∈ later.blocks) :
    Succeeds later (Mapping.openHandle (.issue block.base block.size)) ⟨block.base⟩ := by
  intro machine same
  unfold Mapping.openHandle
  rw [same, Heap.check_issue formed live]
  exact ⟨congrArg Mapping.mk (formed.issue_base live), rfl⟩

theorem openBuffer_described (formed : later.WellFormed) {block : Block} {handle : Handle}
    {address size : Nat} (live : block ∈ later.blocks)
    (maps : Succeeds later (Mapping.openHandle handle) ⟨block.base⟩)
    (lower : block.base ≤ address) (upper : address + size ≤ block.base + block.size) :
    Succeeds later (openBuffer
      ⟨handle.bytes, UInt64.ofNat (address - block.base), UInt64.ofNat size⟩)
      (⟨block.base⟩, address) := by
  have bounded := formed.bounded live
  have offset : (UInt64.ofNat (address - block.base)).toNat = address - block.base :=
    UInt64.toNat_ofNat_of_lt (by simp only [UInt64.size]; omega)
  have length : (UInt64.ofNat size).toNat = size :=
    UInt64.toNat_ofNat_of_lt (by simp only [UInt64.size]; omega)
  have whole := congrArg (Except.mapError Error.device) (Handle.ofBytes?_bytes handle)
  unfold openBuffer
  apply (Succeeds.ofExcept whole).bind
  apply (maps.mapFault Error.device).bind
  apply Succeeds.undoOnFailure
  intro machine same
  rw [bind_apply]
  simp only [Action.get, same]
  rw [Heap.addressRange_base (formed.blockFrom?_base live)]
  simp only [Except.mapError, Action.ofExcept, bind_apply, offset, length]
  rw [if_pos (by omega)]
  exact ⟨by rw [Nat.add_sub_cancel' lower], same⟩

/-- A buffer that is described while its block lives is opened while the block lives on. -/
theorem describe_opens (formed : heap.WellFormed) (formedLater : later.WellFormed)
    {address length : Nat} (contains : heap.Contains address length)
    (keeps : heap.Keeps later address) :
    ∃ descriptor mapping, (∀ strict, View.describe heap strict address length = .ok descriptor) ∧
      descriptor.size.toNat = length ∧ heap.mapping? address = some mapping ∧
      Succeeds later (openBuffer descriptor) (mapping, address) := by
  obtain ⟨block, live, belongs, upper⟩ := contains
  obtain ⟨other, lives, same⟩ := List.mem_map.mp (keeps block live belongs)
  obtain ⟨based, sized⟩ : other.base = block.base ∧ other.size = block.size :=
    Prod.mk.inj same
  have bounded := formed.bounded live
  have lower : block.base ≤ address := by
    rcases belongs with rfl | held
    · exact Nat.le_refl _
    · rw [Block.holds, Bool.and_eq_true, decide_eq_true_eq] at held
      exact held.1
  have opens := openBuffer_described formedLater lives (openHandle_issue formedLater lives)
    (based.symm ▸ lower) (Nat.le_trans upper (by rw [based, sized]))
  rw [based, sized] at opens
  have sized : (UInt64.ofNat length).toNat = length :=
    UInt64.toNat_ofNat_of_lt (by simp only [UInt64.size]; omega)
  have mapped : heap.mapping? address = some ⟨block.base⟩ := by
    rw [Heap.mapping?, formed.blockAt?_eq live belongs]
    rfl
  exact ⟨_, _, fun strict => View.describe_eq formed live belongs strict length, sized, mapped,
    opens⟩

theorem describe?_opens (formed : heap.WellFormed) (formedLater : later.WellFormed)
    {address : Option Nat} {length : Nat}
    (contains : ∀ found ∈ address, heap.Contains found length)
    (keeps : ∀ found ∈ address, heap.Keeps later found) :
    ∃ descriptor, (∀ strict, View.describe? heap strict address length = .ok descriptor) ∧
      (∀ found, descriptor = some found → found.size.toNat = length) ∧
      Succeeds later (openBuffer? descriptor) (address.bind heap.mapping?, address) := by
  cases address with
  | none => exact ⟨none, fun _ => rfl, by simp, .pure _⟩
  | some address =>
      obtain ⟨descriptor, mapping, described, sized, mapped, opens⟩ :=
        describe_opens formed formedLater (contains address rfl) (keeps address rfl)
      refine ⟨some descriptor, fun strict => ?_, ?_, ?_⟩
      · rw [View.describe?, described strict]
        rfl
      · rintro found ⟨⟩
        exact sized
      · rw [Option.bind_some, mapped]
        exact opens.bind (.pure _)

end SharedTable

end DeviceColumns
