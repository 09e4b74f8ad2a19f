import DeviceColumns.Proofs.Transport.Payments

/-!
What is decoded is no larger than its bytes. Every field, handle tree and metadata entry takes up a
byte besides its texts and handles, so whatever is found has been paid for, and no count is met for
free. As every level of nesting takes a byte off before it goes down, no input is nested deeper than
it has bytes, and the depth that is followed never shows.
-/

namespace DeviceColumns

set_option autoImplicit false

open Reader Wire

mutual

/-- The fields inside a type at all depths. -/
def ArrowType.nodes : ArrowType → List Field
  | .list item => item.nodes
  | .listView item => item.nodes
  | .fixedSizeList item _ => item.nodes
  | .largeList item => item.nodes
  | .largeListView item => item.nodes
  | .struct fields => Field.nodesOfAll fields
  | .union members _ => Field.nodesOfMembers members
  | .dictionary key value => key.nodes ++ value.nodes
  | .map entries _ => entries.nodes
  | .runEndEncoded runEnds values => runEnds.nodes ++ values.nodes
  | _ => []

/-- The field and those inside its type. -/
def Field.nodes : Field → List Field
  | ⟨name, type, nullable, dictId, dictOrdered, metadata⟩ =>
      ⟨name, type, nullable, dictId, dictOrdered, metadata⟩ :: type.nodes

def Field.nodesOfAll : List Field → List Field
  | [] => []
  | field :: rest => field.nodes ++ Field.nodesOfAll rest

def Field.nodesOfMembers : List (Int8 × Field) → List Field
  | [] => []
  | (_, field) :: rest => field.nodes ++ Field.nodesOfMembers rest

end

mutual

def HandleTree.nodes : HandleTree → List HandleTree
  | ⟨rows, nullCount, data, validity, children⟩ =>
      ⟨rows, nullCount, data, validity, children⟩ :: HandleTree.nodesOfAll children

def HandleTree.nodesOfAll : List HandleTree → List HandleTree
  | [] => []
  | tree :: rest => tree.nodes ++ HandleTree.nodesOfAll rest

end

/-- The metadata entries, and the bytes of their keys and values. -/
def Wire.metadataExtent (entries : List (String × String)) : Nat :=
  entries.length + (entries.flatMap fun entry => utf8 entry.1 ++ utf8 entry.2).length

/-- The fields, the bytes of their names, and their metadata. -/
def Field.extent (fields : List Field) : Nat :=
  fields.length + (fields.flatMap fun field => utf8 field.name).length +
    metadataExtent (fields.flatMap Field.metadata)

def HandleTree.handleBytes (tree : HandleTree) : Bytes :=
  (tree.data.map Descriptor.handle).getD [] ++ (tree.validity.map Descriptor.handle).getD []

/-- The handle trees and the bytes of their handles. -/
def HandleTree.extent (trees : List HandleTree) : Nat :=
  trees.length + (trees.flatMap HandleTree.handleBytes).length

/-- Everything in a message that is counted by a prefix of its own: fields, metadata entries and
handle trees at all depths, and all bytes of names, metadata and handles. -/
def Message.extent (message : Message) : Nat :=
  Field.extent (Field.nodesOfAll message.schema.fields) + metadataExtent message.schema.metadata +
    HandleTree.extent (HandleTree.nodesOfAll message.columns)

/-- For inputs of at most `room` bytes, nesting need not be followed further than `depth`. -/
def DeepEnough (room depth more : Nat) : Prop := depth = more ∨ room ≤ depth ∧ depth ≤ more

namespace Wire

variable {room : Nat}

theorem pays_entry : Pays room 0 (fun entry => metadataExtent [entry]) readEntry readEntry := by
  refine pays_bind pays_string fun key => pays_bind pays_string fun value => pays_pure _ ?_
  simp only [metadataExtent, List.flatMap_cons, List.flatMap_nil, List.length_append,
    List.length_cons, List.length_nil]
  omega

theorem pays_metadata : Pays room 0 metadataExtent readMetadata readMetadata := by
  refine pays_counted pays_entry rfl fun entry entries => ?_
  simp only [metadataExtent, List.flatMap_cons, List.flatMap_nil, List.length_append,
    List.length_cons, List.length_nil]
  omega

end Wire

theorem Field.extent_append (front back : List Field) :
    extent (front ++ back) = extent front + extent back := by
  simp only [extent, metadataExtent, List.flatMap_append, List.length_append]
  omega

theorem Field.nodes_eq (field : Field) : field.nodes = field :: field.type.nodes := by
  cases field
  rfl

section Types

variable {room credit : Nat} {short long : Reader ArrowType}

/-- The byte before its name pays for the field itself. -/
theorem Field.pays_read (inner : Pays room 0 (fun type => extent type.nodes) short long) :
    Pays room 0 (fun field => extent field.nodes) (Field.read short) (Field.read long) := by
  refine pays_bind pays_string fun name => pays_bind inner fun type => ?_
  refine pays_bind (refines_bool.pays 0) fun _ => pays_bind (refines_int64.pays 0) fun _ => ?_
  refine pays_bind (refines_bool.pays 0) fun _ => pays_bind pays_metadata fun metadata => ?_
  refine pays_pure _ ?_
  simp only [nodes, extent, metadataExtent, List.flatMap_cons, List.flatMap_append,
    List.length_append, List.length_cons]
  omega

theorem Field.pays_readMember (inner : Pays room 0 (fun type => extent type.nodes) short long) :
    Pays room 0 (fun member => extent member.2.nodes) (Field.readMember short)
      (Field.readMember long) :=
  pays_bind (refines_int8.pays 0) fun _ => pays_bind (Field.pays_read inner) fun _ =>
    pays_pure _ (by simp)

theorem Field.pays_readAll (inner : Pays room 0 (fun type => extent type.nodes) short long) :
    Pays room 0 (fun fields => extent (nodesOfAll fields)) (readMany (Field.read short))
      (readMany (Field.read long)) :=
  pays_counted (Field.pays_read inner) rfl fun _ _ => Nat.le_of_eq (extent_append _ _)

theorem Field.pays_readMembers (inner : Pays room 0 (fun type => extent type.nodes) short long) :
    Pays room 0 (fun members => extent (nodesOfMembers members)) (readMany (Field.readMember short))
      (readMany (Field.readMember long)) :=
  pays_counted (Field.pays_readMember inner) rfl fun _ _ => Nat.le_of_eq (extent_append _ _)

/-- The fields inside a type are those of its parts. -/
theorem ArrowType.pays_readParts
    (inner : Pays room 0 (fun type => Field.extent type.nodes) short long) (tag : Nat) :
    Pays room credit (fun type => Field.extent type.nodes) (readParts short tag)
      (readParts long tag) := by
  have field := Field.pays_read inner
  have plain (type : ArrowType) (bare : type.nodes = []) {paid : Nat} :
      Pays room paid (fun type => Field.extent type.nodes) (pure type) (pure type) := by
    refine pays_pure type ?_
    rw [bare]
    exact Nat.zero_le _
  have both (first second : List Field) :
      Field.extent (first ++ second) ≤ credit + Field.extent first + Field.extent second := by
    rw [Field.extent_append]
    omega
  unfold readParts
  split
  case h_14 =>
    exact pays_bind (refines_timeUnit.pays 0) fun _ =>
      pays_bind ((refines_option refines_string).pays 0) fun _ => plain _ rfl
  case h_17 | h_18 | h_19 => exact pays_bind (refines_timeUnit.pays 0) fun _ => plain _ rfl
  case h_20 => exact pays_bind (refines_intervalUnit.pays 0) fun _ => plain _ rfl
  case h_22 => exact pays_bind (refines_int32.pays 0) fun _ => plain _ rfl
  case h_28 | h_29 | h_31 | h_32 =>
    exact pays_bind field fun _ => pays_pure _ (Nat.le_add_left _ _)
  case h_30 =>
    exact pays_bind field fun _ => pays_bind (refines_int32.pays 0) fun _ =>
      pays_pure _ (Nat.le_add_left _ _)
  case h_33 =>
    exact pays_bind (Field.pays_readAll inner) fun _ => pays_pure _ (Nat.le_add_left _ _)
  case h_34 =>
    exact pays_bind (Field.pays_readMembers inner) fun _ =>
      pays_bind (refines_unionMode.pays 0) fun _ => pays_pure _ (Nat.le_add_left _ _)
  case h_35 =>
    exact pays_bind inner fun _ => pays_bind inner fun _ => pays_pure _ (both _ _)
  case h_36 | h_37 =>
    exact pays_bind pays_byte fun _ => pays_bind (refines_int8.pays 0) fun _ => plain _ rfl
  case h_38 =>
    exact pays_bind field fun _ => pays_bind (refines_bool.pays 0) fun _ =>
      pays_pure _ (Nat.le_add_left _ _)
  case h_39 => exact pays_bind field fun _ => pays_bind field fun _ => pays_pure _ (both _ _)
  case h_40 => exact pays_fail
  all_goals exact plain _ rfl

end Types

variable {room depth more : Nat}

theorem DeepEnough.below (deep : DeepEnough room (depth + 1) (more + 1)) :
    DeepEnough (room - 1) depth more := by
  unfold DeepEnough at *
  omega

/-- The number of a type is read before its parts, which leaves less room for them. -/
theorem ArrowType.pays_read (deep : DeepEnough room depth more) :
    Pays room 0 (fun type => Field.extent type.nodes) (ArrowType.read depth)
      (ArrowType.read more) := by
  induction depth generalizing room more with
  | zero =>
      obtain rfl | ⟨empty, -⟩ := deep
      · exact pays_fail
      · obtain rfl := Nat.le_zero.mp empty
        exact pays_nothing fun allowance => by cases more <;> rfl
  | succ depth induction =>
      cases more with
      | zero =>
          unfold DeepEnough at deep
          omega
      | succ more =>
          exact pays_bind_within pays_tag (fun _ => by omega)
            (ArrowType.pays_readParts (induction deep.below))

theorem Schema.pays_read (deep : DeepEnough room depth more) :
    Pays room 0
      (fun schema => Field.extent (Field.nodesOfAll schema.fields) + metadataExtent schema.metadata)
      (Schema.read depth) (Schema.read more) :=
  pays_bind (Field.pays_readAll (ArrowType.pays_read deep)) fun _ =>
    pays_bind pays_metadata fun _ => pays_pure _ (by simp)

theorem Descriptor.pays_read :
    Pays room 0 (fun descriptor => descriptor.handle.length) Descriptor.read Descriptor.read :=
  pays_bind pays_bytes fun _ => pays_bind (refines_uint64.pays 0) fun _ =>
    pays_bind (refines_uint64.pays 0) fun _ => pays_pure _ (by simp)

namespace HandleTree

theorem extent_append (front back : List HandleTree) :
    extent (front ++ back) = extent front + extent back := by
  simp only [extent, List.flatMap_append, List.length_append]
  omega

theorem pays_readAll {short long : Reader HandleTree}
    (each : Pays room 0 (fun tree => extent tree.nodes) short long) :
    Pays room 0 (fun trees => extent (nodesOfAll trees)) (readMany short) (readMany long) :=
  pays_counted each rfl fun _ _ => Nat.le_of_eq (extent_append _ _)

theorem length_handleBytes (data validity : Option Descriptor) :
    ((data.map Descriptor.handle).getD [] ++ (validity.map Descriptor.handle).getD []).length =
      (data.map fun found => found.handle.length).getD 0 +
        (validity.map fun found => found.handle.length).getD 0 := by
  cases data <;> cases validity <;> simp

/-- The row count pays for the tree itself, before its children are read. -/
theorem pays_read (deep : DeepEnough room depth more) :
    Pays room 0 (fun tree => extent tree.nodes) (HandleTree.read depth) (HandleTree.read more) := by
  induction depth generalizing room more with
  | zero =>
      obtain rfl | ⟨empty, -⟩ := deep
      · exact pays_fail
      · obtain rfl := Nat.le_zero.mp empty
        exact pays_nothing fun allowance => by cases more <;> rfl
  | succ depth induction =>
      cases more with
      | zero =>
          unfold DeepEnough at deep
          omega
      | succ more =>
          have descriptor {left : Nat} : Pays left 0
              (fun choice => (choice.map fun found => found.handle.length).getD 0)
              (readOption Descriptor.read) (readOption Descriptor.read) :=
            pays_option Descriptor.pays_read
          have shorter (_ : UInt64) : room ≤ room - 1 + 1 := by omega
          refine pays_bind_within pays_uint64 shorter fun rows => ?_
          refine pays_bind (refines_uint64.pays 0) fun nullCount => ?_
          refine pays_bind descriptor fun data => pays_bind descriptor fun validity => ?_
          refine pays_bind (pays_readAll (induction deep.below)) fun children => pays_pure _ ?_
          have own := length_handleBytes data validity
          simp only [nodes, extent, handleBytes, List.length_cons, List.flatMap_cons,
            List.length_append] at own ⊢
          omega

end HandleTree

namespace Message

theorem pays_read (deep : DeepEnough room depth more) :
    Pays room 0 extent (Message.read depth) (Message.read more) := by
  refine pays_bind ((Varint.refines_decodeBelow 32).pays 0) fun version => ?_
  refine pays_bind (refines_int32.pays 0) fun code => pays_bind (refines_int64.pays 0) fun id => ?_
  refine pays_bind (Schema.pays_read deep) fun schema => ?_
  refine pays_bind (HandleTree.pays_readAll (HandleTree.pays_read deep)) fun columns => ?_
  exact pays_pure _ (by simp [extent])

variable {bytes body : Bytes} {message : Message} {fault : Error}

/-- The bytes behind the magic. -/
def bodyOf (bytes : Bytes) : Bytes := bytes.drop magic.length

/-- A message is accepted with the last byte of its body, which is also the last one allowed. -/
theorem ofBody?_whole (found : ofBody? body = some message) :
    read body.length ⟨body, body.length⟩ = some (message, ⟨[], 0⟩) := by
  unfold ofBody? at found
  split at found
  case h_2 => cases found
  case h_1 other allowance ran =>
    cases found
    obtain ⟨front, split, allowed, -⟩ := refines_read (Nat.le_refl body.length) _ _ _ ran
    simp only [List.append_nil] at split allowed
    subst split
    have used : allowance = 0 := by omega
    rw [ran, used]

theorem decode_ok (accepted : decode bytes = .ok message) :
    bytes = magic ++ bodyOf bytes ∧ ofBody? (bodyOf bytes) = some message := by
  unfold decode at accepted
  split at accepted
  · cases accepted
  case isFalse marked =>
    rw [not_not] at marked
    split at accepted
    · cases accepted
    case h_2 found held =>
      split at accepted
      · cases accepted
        have split := List.take_append_drop magic.length bytes
        rw [marked] at split
        exact ⟨split.symm, held⟩
      · cases accepted

theorem kind_of_decode (refused : decode bytes = .error fault) : fault.kind = .transport := by
  unfold decode at refused
  split at refused
  · cases refused
    rfl
  · split at refused
    · cases refused
      rfl
    · split at refused
      · cases refused
      · cases refused
        rfl

/-- Decoding is bounded by the bytes present. It ends with a message or a transport fault. No depth
of nesting, and no count of fields, members, metadata entries or handle trees, leads further than
there are bytes. What is accepted fills the body and is no larger than it. -/
structure DecodesWithin (bytes : Bytes) : Prop where
  ends : (∃ message, decode bytes = .ok message) ∨
    ∃ fault, decode bytes = .error fault ∧ fault.kind = .transport
  nesting : ∀ depth, (bodyOf bytes).length ≤ depth →
    read depth ⟨bodyOf bytes, (bodyOf bytes).length⟩ =
      read (bodyOf bytes).length ⟨bodyOf bytes, (bodyOf bytes).length⟩
  counts : ∀ depth count input, input.bytes.length < count →
    (Field.read (ArrowType.read depth)).many count input = none ∧
      (Field.readMember (ArrowType.read depth)).many count input = none ∧
      readEntry.many count input = none ∧ (HandleTree.read depth).many count input = none
  whole : ∀ message, decode bytes = .ok message → bytes = magic ++ bodyOf bytes ∧
    read (bodyOf bytes).length ⟨bodyOf bytes, (bodyOf bytes).length⟩ =
      some (message, ⟨[], 0⟩)
  small : ∀ message, decode bytes = .ok message → message.extent ≤ (bodyOf bytes).length

theorem decode_within (bytes : Bytes) : DecodesWithin bytes where
  ends := by
    cases outcome : decode bytes with
    | ok message => exact .inl ⟨message, rfl⟩
    | error fault => exact .inr ⟨fault, rfl, kind_of_decode outcome⟩
  nesting := fun depth enough =>
    (pays_read (.inr ⟨Nat.le_refl _, enough⟩)).same _ (Nat.le_refl _)
  counts := by
    intro depth count input more
    have deep : DeepEnough input.bytes.length depth depth := .inl rfl
    have type := ArrowType.pays_read deep
    have tree := HandleTree.pays_read deep
    have field (field : Field) : 0 < Field.extent field.nodes := by
      simp only [Field.nodes_eq, Field.extent, List.length_cons]
      omega
    refine ⟨(Field.pays_read type).many_eq_none field more,
      (Field.pays_readMember type).many_eq_none (fun member => field member.2) more,
      pays_entry.many_eq_none (fun entry => ?_) more, tree.many_eq_none (fun tree => ?_) more⟩
    · simp only [metadataExtent, List.length_cons]
      omega
    · cases tree
      simp only [HandleTree.nodes, HandleTree.extent, List.length_cons]
      omega
  whole := by
    intro message accepted
    obtain ⟨split, held⟩ := decode_ok accepted
    exact ⟨split, ofBody?_whole held⟩
  small := by
    intro message accepted
    have read := ofBody?_whole (decode_ok accepted).2
    have paid := (pays_read (.inl rfl)).paid _ message _ (Nat.le_refl _) read
    rwa [List.length_nil, Nat.add_zero, Nat.zero_add] at paid

/-- A schema that claims to have as many fields as a word can count. -/
example : decode (magic ++ [1, 2, 1, 253, 255, 255, 255, 255, 255, 255, 255, 255, 0, 0]) =
    .error .undecodable := by
  rfl

end Message

end DeviceColumns
