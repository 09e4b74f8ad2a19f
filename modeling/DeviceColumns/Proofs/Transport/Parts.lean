import DeviceColumns.Proofs.Transport.Reads

/-!
The parts that messages are made of: truth values, counted sequences, texts, optional values and
numbers of fixed width. Nothing here is longer than the whole it stands in, and every element of a
sequence takes up a byte, so a bound on the bytes of a message bounds every count in it.
-/

namespace DeviceColumns

set_option autoImplicit false

open Reader

variable {Value : Type}

/-- The bytes of any byte string in memory can be counted by a 64-bit word. -/
def Bytes.Addressable (bytes : Bytes) : Prop := bytes.length < 2 ^ 64

theorem Bytes.Addressable.of_le {part whole : Bytes} (sized : whole.Addressable)
    (within : part.length ≤ whole.length) : part.Addressable :=
  Nat.lt_of_le_of_lt within sized

theorem length_le_length_flatMap {encode : Value → Bytes} (values : List Value)
    (nonempty : ∀ value ∈ values, 0 < (encode value).length) :
    values.length ≤ (values.flatMap encode).length := by
  induction values with
  | nil => simp
  | cons value values induction =>
      have head := nonempty value (by simp)
      have tail := induction fun later member => nonempty later (by simp [member])
      rw [List.flatMap_cons, List.length_append, List.length_cons]
      omega

theorem length_le_length_flatMap_of_mem {encode : Value → Bytes} {values : List Value}
    {value : Value} (member : value ∈ values) :
    (encode value).length ≤ (values.flatMap encode).length := by
  obtain ⟨before, after, rfl⟩ := List.append_of_mem member
  simp only [List.flatMap_append, List.flatMap_cons, List.length_append]
  omega

namespace Wire

theorem reads_bool (value : Bool) : Reads readBool value (bool value) := by
  cases value <;> exact reads_bind_pure (reads_byte _) rfl

theorem reads_count {count : Nat} (bounded : count < 2 ^ 64) :
    Reads readCount count (Varint.encode count) :=
  Varint.reads_below bounded (Nat.le_refl 64)

theorem reads_tag {tag : Nat} (bounded : tag < 2 ^ 32) : Reads readTag tag (Varint.encode tag) :=
  Varint.reads_below bounded (by omega)

theorem reads_counted {reader : Reader Value} {encode : Value → Bytes} {values : List Value}
    (each : ∀ value ∈ values, reader.Reads value (encode value))
    (nonempty : ∀ value ∈ values, 0 < (encode value).length)
    (sized : Bytes.Addressable (values.flatMap encode)) :
    Reads (readMany reader) values (Varint.encode values.length ++ values.flatMap encode) := by
  have bounded : values.length < 2 ^ 64 :=
    Nat.lt_of_le_of_lt (length_le_length_flatMap values nonempty) sized
  exact reads_bind (reads_count bounded) (reads_many values each)

theorem reads_bytes {value : Bytes} (sized : (bytes value).Addressable) :
    Reads readBytes value (bytes value) := by
  have bounded : value.length < 2 ^ 64 := by
    rw [Bytes.Addressable, bytes, List.length_append] at sized
    omega
  exact reads_bind (reads_count bounded) (reads_take value)

theorem reads_string {value : String} (sized : (string value).Addressable) :
    Reads readString value (string value) := by
  apply reads_bind_pure (reads_bytes sized)
  have decoded : String.fromUTF8? ⟨value.toUTF8.data.toList.toArray⟩ = some value := by
    simp only [String.fromUTF8?, String.toUTF8_eq_toByteArray, Array.toArray_toList]
    exact dif_pos value.isValidUTF8
  rw [decoded]
  rfl

theorem reads_option {reader : Reader Value} {encode : Value → Bytes} {value : Option Value}
    (each : ∀ found, value = some found → reader.Reads found (encode found)) :
    Reads (readOption reader) value (option encode value) := by
  cases value with
  | none => exact reads_bind_pure (reads_bool false) rfl
  | some found =>
      exact reads_bind (reads_bool true) (reads_bind_pure (each found rfl) rfl)

theorem reads_entry {pair : String × String} (sized : (entry pair).Addressable) :
    Reads readEntry pair (entry pair) := by
  have key : (string pair.1).Addressable := sized.of_le (by simp [entry])
  have value : (string pair.2).Addressable := sized.of_le (by simp [entry])
  exact reads_bind (reads_string key) (reads_bind_pure (reads_string value) rfl)

theorem length_string_pos (value : String) : 0 < (string value).length := by
  rw [string, bytes, List.length_append]
  exact Nat.add_pos_left (Varint.encode_length_pos _) _

theorem reads_metadata {entries : List (String × String)} (sized : (metadata entries).Addressable) :
    Reads readMetadata entries (metadata entries) := by
  have inside : Bytes.Addressable (entries.flatMap entry) := sized.of_le (by simp [metadata])
  apply reads_counted
  · intro pair member
    exact reads_entry (inside.of_le (length_le_length_flatMap_of_mem member))
  · intro pair member
    rw [entry, List.length_append]
    exact Nat.add_pos_left (length_string_pos pair.1) _
  · exact inside

theorem reads_int8 (value : Int8) : Reads readInt8 value [value.toUInt8] :=
  reads_bind_pure (reads_byte _) (by simp)

theorem reads_int32 (value : Int32) : Reads readInt32 value (Varint.encodeSigned value.toInt) := by
  have low := value.le_toInt
  have high := value.toInt_lt
  refine reads_bind_pure (Varint.reads_signed 31 (by simpa using low)
    (by simpa using high) (by omega)) ?_
  rw [Int32.ofInt_toInt]

theorem reads_int64 (value : Int64) : Reads readInt64 value (Varint.encodeSigned value.toInt) := by
  have low := value.le_toInt
  have high := value.toInt_lt
  refine reads_bind_pure (Varint.reads_signed 63 (by simpa using low)
    (by simpa using high) (by omega)) ?_
  rw [Int64.ofInt_toInt]

theorem reads_uint64 (value : UInt64) : Reads readUInt64 value (Varint.encode value.toNat) := by
  refine reads_bind_pure (Varint.reads_below value.toNat_lt (Nat.le_refl 64)) ?_
  rw [UInt64.ofNat_toNat]

theorem reads_timeUnit (unit : TimeUnit) : Reads readTimeUnit unit (Varint.encode unit.tag) := by
  cases unit <;> exact reads_bind_pure (reads_tag (by decide)) rfl

theorem reads_intervalUnit (unit : IntervalUnit) :
    Reads readIntervalUnit unit (Varint.encode unit.tag) := by
  cases unit <;> exact reads_bind_pure (reads_tag (by decide)) rfl

theorem reads_unionMode (mode : UnionMode) : Reads readUnionMode mode (Varint.encode mode.tag) := by
  cases mode <;> exact reads_bind_pure (reads_tag (by decide)) rfl

end Wire

end DeviceColumns
