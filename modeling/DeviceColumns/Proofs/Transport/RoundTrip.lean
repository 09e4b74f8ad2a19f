import DeviceColumns.Proofs.Transport.Parts
import Mathlib.Data.UInt

/-!
Reading undoes writing for whole messages. The induction for types and for handle trees is on the
depth that is followed: a tree whose encoding has no more bytes than the depth cannot nest deeper,
as every level writes a byte of its own before its parts. So the number of bytes of a body, which is
the depth that it is read with, is always enough, and the allowance of as many bytes is used up
exactly.
-/

namespace DeviceColumns

set_option autoImplicit false

open Reader Wire

theorem Field.encodeAll_eq (fields : List Field) :
    Field.encodeAll fields = fields.flatMap Field.encode := by
  induction fields with
  | nil => rfl
  | cons field rest induction => rw [Field.encodeAll, List.flatMap_cons, induction]

def Field.encodeMember (member : Int8 × Field) : Bytes := member.1.toUInt8 :: member.2.encode

theorem Field.length_le_encodeAll {fields : List Field} {field : Field} (member : field ∈ fields) :
    field.encode.length ≤ (Field.encodeAll fields).length := by
  rw [Field.encodeAll_eq]
  exact length_le_length_flatMap_of_mem member

theorem Field.encodeMembers_eq (members : List (Int8 × Field)) :
    Field.encodeMembers members = members.flatMap Field.encodeMember := by
  induction members with
  | nil => rfl
  | cons member rest induction =>
      rw [Field.encodeMembers, List.flatMap_cons, induction, Field.encodeMember, List.cons_append]

theorem Field.length_le_encodeMembers {members : List (Int8 × Field)} {member : Int8 × Field}
    (present : member ∈ members) :
    member.2.encode.length ≤ (Field.encodeMembers members).length := by
  have within : (Field.encodeMember member).length ≤ (members.flatMap Field.encodeMember).length :=
    length_le_length_flatMap_of_mem present
  rw [Field.encodeMembers_eq]
  rw [Field.encodeMember, List.length_cons] at within
  omega

theorem HandleTree.encodeAll_eq (trees : List HandleTree) :
    HandleTree.encodeAll trees = trees.flatMap HandleTree.encode := by
  induction trees with
  | nil => rfl
  | cons tree rest induction => rw [HandleTree.encodeAll, List.flatMap_cons, induction]

namespace Field

theorem encode_eq (field : Field) :
    field.encode = string field.name ++ (field.type.encode ++ (bool field.nullable ++
      (Varint.encodeSigned field.dictId.toInt ++ (bool field.dictOrdered ++
        Wire.metadata field.metadata)))) := by
  cases field
  simp only [encode, List.append_assoc]

theorem length_type_lt (field : Field) : field.type.encode.length < field.encode.length := by
  have name := length_string_pos field.name
  simp only [encode_eq, List.length_append]
  omega

theorem reads_encode {inner : Reader ArrowType} {field : Field}
    (type : inner.Reads field.type field.type.encode) (sized : Bytes.Addressable field.encode) :
    (Field.read inner).Reads field field.encode := by
  rw [encode_eq] at sized ⊢
  have name : (string field.name).Addressable := sized.of_le (by simp)
  have entries : (Wire.metadata field.metadata).Addressable :=
    sized.of_le (by simp only [List.length_append]; omega)
  cases field
  exact reads_bind (reads_string name) <| reads_bind type <| reads_bind (reads_bool _) <|
    reads_bind (reads_int64 _) <| reads_bind (reads_bool _) <|
    reads_bind_pure (reads_metadata entries) rfl

theorem reads_all {inner : Reader ArrowType} {fields : List Field}
    (types : ∀ field ∈ fields, inner.Reads field.type field.type.encode)
    (sized : Bytes.Addressable (encodeAll fields)) :
    (readMany (Field.read inner)).Reads fields
      (Varint.encode fields.length ++ encodeAll fields) := by
  rw [encodeAll_eq] at sized ⊢
  apply reads_counted
  · intro field member
    exact reads_encode (types field member) (sized.of_le (length_le_length_flatMap_of_mem member))
  · intro field member
    exact Nat.zero_lt_of_lt field.length_type_lt
  · exact sized

theorem reads_members {inner : Reader ArrowType} {members : List (Int8 × Field)}
    (types : ∀ member ∈ members, inner.Reads member.2.type member.2.type.encode)
    (sized : Bytes.Addressable (encodeMembers members)) :
    (readMany (Field.readMember inner)).Reads members
      (Varint.encode members.length ++ encodeMembers members) := by
  rw [encodeMembers_eq] at sized ⊢
  apply reads_counted
  · intro member present
    have bounded := sized.of_le (length_le_length_flatMap_of_mem present)
    have field : Bytes.Addressable member.2.encode := bounded.of_le (by simp [encodeMember])
    exact reads_bind (reads_int8 member.1)
      (reads_bind_pure (reads_encode (types member present) field) rfl)
  · intro member present
    simp [encodeMember]
  · exact sized

end Field

namespace ArrowType

variable {depth : Nat}

theorem reads_variant {type : ArrowType} {parts : Bytes} (tag : Nat) (bounded : tag < 2 ^ 32)
    (read : (readParts (ArrowType.read depth) tag).Reads type parts) :
    (ArrowType.read (depth + 1)).Reads type (Varint.encode tag ++ parts) :=
  reads_bind (reads_tag bounded) read

theorem reads_constant {type : ArrowType} (tag : Nat) (bounded : tag < 2 ^ 32)
    (read : readParts (ArrowType.read depth) tag = pure type) :
    (ArrowType.read (depth + 1)).Reads type (Varint.encode tag) :=
  reads_bind_pure (reads_tag bounded) read

theorem encode_length_pos (type : ArrowType) : 0 < type.encode.length := by
  rw [List.length_pos_iff]
  cases type <;> simp [encode]

/-- One level: a type is read back if all types with fewer bytes are, one level further down. -/
theorem reads_level (type : ArrowType)
    (inner : ∀ part : ArrowType, part.encode.length < type.encode.length →
      (ArrowType.read depth).Reads part part.encode)
    (sized : Bytes.Addressable type.encode) :
    (ArrowType.read (depth + 1)).Reads type type.encode := by
  have item (field : Field) (shorter : field.encode.length < type.encode.length) :
      (Field.read (ArrowType.read depth)).Reads field field.encode := by
    have typed := field.length_type_lt
    exact Field.reads_encode (inner field.type (by omega)) (sized.of_le (by omega))
  cases type with
  | timestamp unit zone =>
      have text (found : String) (present : zone = some found) :
          Reads readString found (string found) := by
        subst present
        exact reads_string (sized.of_le (by simp [encode, Wire.option]; omega))
      rw [encode, List.append_assoc]
      exact reads_variant 13 (by decide)
        (reads_bind (reads_timeUnit unit) (reads_bind_pure (reads_option text) rfl))
  | time32 unit => exact reads_variant 16 (by decide) (reads_bind_pure (reads_timeUnit unit) rfl)
  | time64 unit => exact reads_variant 17 (by decide) (reads_bind_pure (reads_timeUnit unit) rfl)
  | duration unit =>
      exact reads_variant 18 (by decide) (reads_bind_pure (reads_timeUnit unit) rfl)
  | interval unit =>
      exact reads_variant 19 (by decide) (reads_bind_pure (reads_intervalUnit unit) rfl)
  | fixedSizeBinary width =>
      exact reads_variant 21 (by decide) (reads_bind_pure (reads_int32 width) rfl)
  | list field =>
      have read := item field (Varint.length_lt 27 _)
      exact reads_variant 27 (by decide) (reads_bind_pure read rfl)
  | listView field =>
      have read := item field (Varint.length_lt 28 _)
      exact reads_variant 28 (by decide) (reads_bind_pure read rfl)
  | fixedSizeList field count =>
      rw [encode, List.append_assoc] at item ⊢
      have read := item field (Varint.length_parts_lt 29 _ _).1
      exact reads_variant 29 (by decide)
        (reads_bind read (reads_bind_pure (reads_int32 count) rfl))
  | largeList field =>
      have read := item field (Varint.length_lt 30 _)
      exact reads_variant 30 (by decide) (reads_bind_pure read rfl)
  | largeListView field =>
      have read := item field (Varint.length_lt 31 _)
      exact reads_variant 31 (by decide) (reads_bind_pure read rfl)
  | struct fields =>
      rw [encode, List.append_assoc] at inner sized ⊢
      have all : Bytes.Addressable (Field.encodeAll fields) :=
        sized.of_le (by simp only [List.length_append]; omega)
      have types (field : Field) (member : field ∈ fields) :
          (ArrowType.read depth).Reads field.type field.type.encode := by
        have typed := field.length_type_lt
        have within := Field.length_le_encodeAll member
        have shorter := (Varint.length_parts_lt 32 (Varint.encode fields.length)
          (Field.encodeAll fields)).2
        exact inner field.type (by omega)
      exact reads_variant 32 (by decide) (reads_bind_pure (Field.reads_all types all) rfl)
  | union members mode =>
      rw [encode, List.append_assoc, List.append_assoc] at inner sized ⊢
      rw [← List.append_assoc (Varint.encode members.length)] at inner sized ⊢
      have all : Bytes.Addressable (Field.encodeMembers members) :=
        sized.of_le (by simp only [List.length_append]; omega)
      have types (member : Int8 × Field) (present : member ∈ members) :
          (ArrowType.read depth).Reads member.2.type member.2.type.encode := by
        have typed := member.2.length_type_lt
        have within := Field.length_le_encodeMembers present
        exact inner member.2.type (by simp only [List.length_append]; omega)
      exact reads_variant 33 (by decide) (reads_bind (Field.reads_members types all)
        (reads_bind_pure (reads_unionMode mode) rfl))
  | dictionary key value =>
      rw [encode, List.append_assoc] at inner ⊢
      have shorter := Varint.length_parts_lt 34 key.encode value.encode
      exact reads_variant 34 (by decide)
        (reads_bind (inner key shorter.1) (reads_bind_pure (inner value shorter.2) rfl))
  | decimal128 precision scale =>
      exact reads_variant 35 (by decide)
        (reads_bind (reads_byte precision) (reads_bind_pure (reads_int8 scale) rfl))
  | decimal256 precision scale =>
      exact reads_variant 36 (by decide)
        (reads_bind (reads_byte precision) (reads_bind_pure (reads_int8 scale) rfl))
  | map entries sorted =>
      rw [encode, List.append_assoc] at item ⊢
      have read := item entries (Varint.length_parts_lt 37 _ _).1
      exact reads_variant 37 (by decide)
        (reads_bind read (reads_bind_pure (reads_bool sorted) rfl))
  | runEndEncoded runEnds values =>
      rw [encode, List.append_assoc] at item ⊢
      have shorter := Varint.length_parts_lt 38 runEnds.encode values.encode
      exact reads_variant 38 (by decide)
        (reads_bind (item runEnds shorter.1) (reads_bind_pure (item values shorter.2) rfl))
  | _ => exact reads_constant _ (by decide) rfl

/-- The depth stands for the bytes of the encoding: the parts of a type have fewer than the type. -/
theorem reads_encode (type : ArrowType) (fits : type.encode.length ≤ depth)
    (sized : Bytes.Addressable type.encode) :
    (ArrowType.read depth).Reads type type.encode := by
  induction depth generalizing type with
  | zero =>
      have written := type.encode_length_pos
      omega
  | succ depth induction =>
      apply reads_level type _ sized
      intro part shorter
      exact induction part (by omega) (sized.of_le (by omega))

end ArrowType

theorem Schema.reads_encode {depth : Nat} {schema : Schema} (fits : schema.encode.length ≤ depth)
    (sized : Bytes.Addressable schema.encode) :
    (Schema.read depth).Reads schema schema.encode := by
  have fields : Bytes.Addressable (Field.encodeAll schema.fields) :=
    sized.of_le (by simp only [Schema.encode, List.length_append]; omega)
  have entries : (Wire.metadata schema.metadata).Addressable :=
    sized.of_le (by simp only [Schema.encode, List.length_append]; omega)
  have types (field : Field) (member : field ∈ schema.fields) :
      (ArrowType.read depth).Reads field.type field.type.encode := by
    have typed := field.length_type_lt
    have within := Field.length_le_encodeAll member
    have whole : (Field.encodeAll schema.fields).length ≤ schema.encode.length := by
      simp only [Schema.encode, List.length_append]
      omega
    exact ArrowType.reads_encode field.type (by omega) (sized.of_le (by omega))
  exact reads_bind (Field.reads_all types fields) (reads_bind_pure (reads_metadata entries) rfl)

theorem Descriptor.reads_encode {descriptor : Descriptor}
    (sized : Bytes.Addressable descriptor.encode) :
    Descriptor.read.Reads descriptor descriptor.encode := by
  have handle : (Wire.bytes descriptor.handle).Addressable :=
    sized.of_le (by simp only [Descriptor.encode, List.length_append]; omega)
  rw [Descriptor.encode, List.append_assoc]
  exact reads_bind (reads_bytes handle) (reads_bind (reads_uint64 _)
    (reads_bind_pure (reads_uint64 _) rfl))

namespace HandleTree

variable {depth : Nat}

theorem encode_eq (tree : HandleTree) :
    tree.encode = Varint.encode tree.rows.toNat ++ (Varint.encode tree.nullCount.toNat ++
      (Wire.option Descriptor.encode tree.data ++ (Wire.option Descriptor.encode tree.validity ++
        (Varint.encode tree.children.length ++ encodeAll tree.children)))) := by
  cases tree
  simp only [encode, List.append_assoc]

theorem encode_length_pos (tree : HandleTree) : 0 < tree.encode.length := by
  rw [encode_eq, List.length_pos_iff]
  simp

theorem length_le_encodeAll {trees : List HandleTree} {tree : HandleTree} (member : tree ∈ trees) :
    tree.encode.length ≤ (encodeAll trees).length := by
  rw [encodeAll_eq]
  exact length_le_length_flatMap_of_mem member

theorem reads_all {trees : List HandleTree}
    (each : ∀ tree ∈ trees, (HandleTree.read depth).Reads tree tree.encode)
    (sized : Bytes.Addressable (encodeAll trees)) :
    (readMany (HandleTree.read depth)).Reads trees
      (Varint.encode trees.length ++ encodeAll trees) := by
  rw [encodeAll_eq] at sized ⊢
  exact reads_counted each (fun tree _ => tree.encode_length_pos) sized

theorem reads_level {tree : HandleTree}
    (children : ∀ child ∈ tree.children, (HandleTree.read depth).Reads child child.encode)
    (sized : Bytes.Addressable tree.encode) :
    (HandleTree.read (depth + 1)).Reads tree tree.encode := by
  have optional (descriptor : Option Descriptor)
      (part : (Wire.option Descriptor.encode descriptor).length ≤ tree.encode.length) :
      (readOption Descriptor.read).Reads descriptor (Wire.option Descriptor.encode descriptor) := by
    refine reads_option fun found present => Descriptor.reads_encode (sized.of_le ?_)
    subst present
    rw [Wire.option, List.length_cons] at part
    omega
  have data := optional tree.data (by simp only [encode_eq, List.length_append]; omega)
  have validity := optional tree.validity (by simp only [encode_eq, List.length_append]; omega)
  have all : Bytes.Addressable (encodeAll tree.children) :=
    sized.of_le (by simp only [encode_eq, List.length_append]; omega)
  rw [encode_eq]
  cases tree
  exact reads_bind (reads_uint64 _) <| reads_bind (reads_uint64 _) <| reads_bind data <|
    reads_bind validity <| reads_bind_pure (reads_all children all) rfl

theorem reads_encode (tree : HandleTree) (fits : tree.encode.length ≤ depth)
    (sized : Bytes.Addressable tree.encode) :
    (HandleTree.read depth).Reads tree tree.encode := by
  induction depth generalizing tree with
  | zero =>
      have written := tree.encode_length_pos
      omega
  | succ depth induction =>
      refine reads_level (fun child member => ?_) sized
      have within := length_le_encodeAll member
      have shorter : (encodeAll tree.children).length < tree.encode.length := by
        have rows := Varint.encode_length_pos tree.rows.toNat
        simp only [encode_eq, List.length_append]
        omega
      exact induction child (by omega) (sized.of_le (by omega))

end HandleTree

namespace Message

theorem reads_body {depth : Nat} {message : Message} (fits : message.body.length ≤ depth)
    (sized : Bytes.Addressable message.body) : (Message.read depth).Reads message message.body := by
  have parts : message.schema.encode.length ≤ message.body.length ∧
      (HandleTree.encodeAll message.columns).length ≤ message.body.length := by
    simp only [body, List.length_append]
    omega
  have schema := Schema.reads_encode (Nat.le_trans parts.1 fits) (sized.of_le parts.1)
  have columns (tree : HandleTree) (member : tree ∈ message.columns) :
      (HandleTree.read depth).Reads tree tree.encode := by
    have within := HandleTree.length_le_encodeAll member
    exact HandleTree.reads_encode tree (by omega) (sized.of_le (by omega))
  have trees := HandleTree.reads_all columns (sized.of_le parts.2)
  have version : message.version.toNat < 2 ^ 32 := message.version.toNat_lt
  simp only [body, List.append_assoc]
  refine reads_bind (Varint.reads_below version (by omega)) <| reads_bind (reads_int32 _) <|
    reads_bind (reads_int64 _) <| reads_bind schema <| reads_bind_pure trees ?_
  rw [UInt32.ofNat_toNat]

theorem ofBody?_body {message : Message} (sized : Bytes.Addressable message.body) :
    ofBody? message.body = some message := by
  have read := reads_body (Nat.le_refl _) sized [] 0
  rw [List.append_nil, Nat.add_zero] at read
  rw [ofBody?, read]

theorem addressable_body {message : Message} (sized : Bytes.Addressable message.encode) :
    Bytes.Addressable message.body :=
  sized.of_le (by simp [encode])

theorem decode_current {message : Message} (current : message.version = currentVersion)
    (sized : Bytes.Addressable message.encode) : decode message.encode = .ok message := by
  have magicTaken (rest : Bytes) : (magic ++ rest).take magic.length = magic := by simp
  have magicDropped (rest : Bytes) : (magic ++ rest).drop magic.length = rest := by simp
  rw [decode, encode, magicTaken, magicDropped, ofBody?_body (addressable_body sized)]
  simp [current]

/-- Decoding an encoded message gives the message back: the body is read to its end, the allowance
of as many bytes as the body has is never exceeded and used up exactly, and no other message has
the same bytes. -/
theorem decode_encode {message : Message} (current : message.version = currentVersion)
    (sized : Bytes.Addressable message.encode) :
    decode message.encode = .ok message ∧
      read message.body.length ⟨message.body, message.body.length⟩ = some (message, ⟨[], 0⟩) ∧
      ∀ other : Message, other.encode = message.encode → other = message := by
  have bodySized := addressable_body sized
  have whole := ofBody?_body bodySized
  refine ⟨decode_current current sized, ?_, ?_⟩
  · have read := reads_body (Nat.le_refl _) bodySized [] 0
    rwa [List.append_nil, Nat.add_zero] at read
  · intro other same
    have bodies : other.body = message.body := List.append_cancel_left same
    have otherWhole := ofBody?_body (bodies ▸ bodySized)
    rw [bodies, whole] at otherWhole
    exact (Option.some.inj otherWhole).symm

/-- A message with types inside types, handles at two levels, and counts on both sides of 251. -/
def nested : Message where
  version := currentVersion
  deviceCode := 1
  deviceId := -1
  schema := ⟨[.plain "s" (.struct [
    .plain "l" (.list (.plain "element" (.decimal128 9 (-2)) true)) false,
    .plain "t" (.timestamp .microsecond (some "UTC")) true]) false], [("key", "value")]⟩
  columns := [⟨300, 2, none, some ⟨List.replicate 64 7, 70000, 38⟩,
    [⟨250, 0, some ⟨[], 2 ^ 40, 1⟩, none, []⟩]⟩]

theorem decode_encode_nested :
    nested.version = currentVersion ∧ Bytes.Addressable nested.encode ∧
      decode nested.encode = .ok nested := by
  have current : nested.version = currentVersion := rfl
  have sized : Bytes.Addressable nested.encode := by
    unfold Bytes.Addressable
    decide +kernel
  exact ⟨current, sized, (decode_encode current sized).1⟩

end Message

end DeviceColumns
