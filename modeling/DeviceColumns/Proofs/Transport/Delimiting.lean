import DeviceColumns.Proofs.Transport.RoundTrip
import DeviceColumns.Share.Import

/-!
Messages say themselves where they end. Whatever a reader finds, it finds in the bytes that it takes
off the front, and it would find the same there whatever followed and however deep it might go. So a
value that was read from the beginning of a message would be read from the whole message too, and
leave the rest of it over. But a message is read to its end; hence no other byte string that begins
like it, be it cut off or extended, holds a message.
-/

namespace DeviceColumns

set_option autoImplicit false

open Reader Wire

variable {Value Next : Type}

namespace Reader

/-- What `short` finds, it takes off the front and pays for, and `long` finds the same in the bytes
taken. -/
def Refines (short long : Reader Value) : Prop :=
  ∀ input value rest, short input = some (value, rest) → ∃ front,
    input.bytes = front ++ rest.bytes ∧ input.allowance = front.length + rest.allowance ∧
      long.Reads value front

theorem refines_fail (long : Reader Value) : Refines fail long := fun _ _ _ found => nomatch found

theorem refines_pure (value : Value) : Refines (pure value) (pure value) := by
  intro input found rest read
  cases read
  exact ⟨[], rfl, (Nat.zero_add _).symm, reads_pure value⟩

theorem refines_ofOption (choice : Option Value) : Refines (ofOption choice) (ofOption choice) := by
  cases choice with
  | none => exact refines_fail _
  | some value => exact refines_pure value

theorem refines_bind {short long : Reader Value} {next after : Value → Reader Next}
    (head : short.Refines long) (tail : ∀ value, (next value).Refines (after value)) :
    (short >>= next).Refines (long >>= after) := by
  intro input result rest read
  rw [bind_apply] at read
  cases first : short input with
  | none => simp [first] at read
  | some taken =>
      obtain ⟨value, middle⟩ := taken
      rw [first] at read
      obtain ⟨front, split, paid, readsFirst⟩ := head input value middle first
      obtain ⟨back, splitBack, paidBack, readsSecond⟩ := tail value middle result rest read
      refine ⟨front ++ back, ?_, ?_, reads_bind readsFirst readsSecond⟩
      · rw [split, splitBack, List.append_assoc]
      · rw [paid, paidBack, List.length_append, Nat.add_assoc]

theorem refines_ite {short long other otherLong : Reader Value} (condition : Prop)
    [Decidable condition] (yes : short.Refines long) (no : other.Refines otherLong) :
    (if condition then short else other).Refines (if condition then long else otherLong) := by
  split_ifs
  · exact yes
  · exact no

theorem refines_byte : Refines byte byte := by
  rintro ⟨_ | ⟨first, others⟩, _ | allowance⟩ value rest read
  · cases read
  · cases read
  · cases read
  · cases read
    exact ⟨[first], rfl, Nat.add_comm _ _, reads_byte first⟩

theorem refines_take (count : Nat) : Refines (take count) (take count) := by
  intro input bytes rest read
  unfold take at read
  split_ifs at read with enough
  cases read
  have counted : (input.bytes.take count).length = count := by
    rw [List.length_take]
    omega
  refine ⟨input.bytes.take count, (List.take_append_drop count _).symm, ?_, ?_⟩
  · rw [counted]
    simp only
    omega
  · have taken := reads_take (input.bytes.take count)
    rwa [counted] at taken

theorem refines_fixed (width : Nat) : Refines (fixed width) (fixed width) :=
  refines_bind (refines_take width) fun _ => refines_pure _

theorem refines_many {short long : Reader Value} (each : short.Refines long) (count : Nat) :
    (short.many count).Refines (long.many count) := by
  induction count with
  | zero => exact refines_pure []
  | succ count induction =>
      exact refines_bind each fun _ => refines_bind induction fun _ => refines_pure _

end Reader

namespace Varint

theorem refines_decode : Refines decode decode := by
  refine refines_bind refines_byte fun first => ?_
  refine refines_ite _ (refines_pure _) <| refines_ite _ (refines_fixed 2) <|
    refines_ite _ (refines_fixed 4) <| refines_ite _ (refines_fixed 8) (refines_fail _)

theorem refines_decodeBelow (bits : Nat) : Refines (decodeBelow bits) (decodeBelow bits) :=
  refines_bind refines_decode fun _ => refines_ite _ (refines_pure _) (refines_fail _)

theorem refines_decodeSigned (bits : Nat) : Refines (decodeSigned bits) (decodeSigned bits) :=
  refines_bind refines_decode fun _ => refines_ite _ (refines_pure _) (refines_fail _)

end Varint

namespace Wire

open Varint

theorem refines_bool : Refines readBool readBool :=
  refines_bind refines_byte fun _ =>
    refines_ite _ (refines_pure _) (refines_ite _ (refines_pure _) (refines_fail _))

theorem refines_count : Refines readCount readCount := refines_decodeBelow 64

theorem refines_tag : Refines readTag readTag := refines_decodeBelow 32

theorem refines_bytes : Refines readBytes readBytes := refines_bind refines_count refines_take

theorem refines_string : Refines readString readString :=
  refines_bind refines_bytes fun _ => refines_ofOption _

theorem refines_option {short long : Reader Value} (part : short.Refines long) :
    (readOption short).Refines (readOption long) :=
  refines_bind refines_bool fun present => by
    cases present
    · exact refines_pure none
    · exact refines_bind part fun _ => refines_pure _

theorem refines_counted {short long : Reader Value} (each : short.Refines long) :
    (readMany short).Refines (readMany long) :=
  refines_bind refines_count (refines_many each)

theorem refines_metadata : Refines readMetadata readMetadata :=
  refines_counted <| refines_bind refines_string fun _ =>
    refines_bind refines_string fun _ => refines_pure _

theorem refines_int8 : Refines readInt8 readInt8 :=
  refines_bind refines_byte fun _ => refines_pure _

theorem refines_int32 : Refines readInt32 readInt32 :=
  refines_bind (refines_decodeSigned 32) fun _ => refines_pure _

theorem refines_int64 : Refines readInt64 readInt64 :=
  refines_bind (refines_decodeSigned 64) fun _ => refines_pure _

theorem refines_uint64 : Refines readUInt64 readUInt64 :=
  refines_bind (refines_decodeBelow 64) fun _ => refines_pure _

theorem refines_timeUnit : Refines readTimeUnit readTimeUnit :=
  refines_bind refines_tag fun _ => refines_ofOption _

theorem refines_intervalUnit : Refines readIntervalUnit readIntervalUnit :=
  refines_bind refines_tag fun _ => refines_ofOption _

theorem refines_unionMode : Refines readUnionMode readUnionMode :=
  refines_bind refines_tag fun _ => refines_ofOption _

end Wire

section Types

variable {short long : Reader ArrowType} (inner : short.Refines long)

include inner

theorem Field.refines_read : (Field.read short).Refines (Field.read long) :=
  refines_bind refines_string fun _ => refines_bind inner fun _ =>
    refines_bind refines_bool fun _ => refines_bind refines_int64 fun _ =>
      refines_bind refines_bool fun _ => refines_bind refines_metadata fun _ => refines_pure _

theorem Field.refines_readMember : (Field.readMember short).Refines (Field.readMember long) :=
  refines_bind refines_int8 fun _ =>
    refines_bind (Field.refines_read inner) fun _ => refines_pure _

theorem ArrowType.refines_readParts (tag : Nat) :
    (readParts short tag).Refines (readParts long tag) := by
  have field := Field.refines_read inner
  have decimal (make : UInt8 → Int8 → ArrowType) :
      Refines (do return make (← byte) (← readInt8)) (do return make (← byte) (← readInt8)) :=
    refines_bind refines_byte fun _ => refines_bind refines_int8 fun _ => refines_pure _
  unfold readParts
  split
  case h_14 =>
    exact refines_bind refines_timeUnit fun _ =>
      refines_bind (refines_option refines_string) fun _ => refines_pure _
  case h_17 | h_18 | h_19 => exact refines_bind refines_timeUnit fun _ => refines_pure _
  case h_20 => exact refines_bind refines_intervalUnit fun _ => refines_pure _
  case h_22 => exact refines_bind refines_int32 fun _ => refines_pure _
  case h_28 | h_29 | h_31 | h_32 => exact refines_bind field fun _ => refines_pure _
  case h_30 => exact refines_bind field fun _ => refines_bind refines_int32 fun _ => refines_pure _
  case h_33 => exact refines_bind (refines_counted field) fun _ => refines_pure _
  case h_34 =>
    exact refines_bind (refines_counted (Field.refines_readMember inner)) fun _ =>
      refines_bind refines_unionMode fun _ => refines_pure _
  case h_35 => exact refines_bind inner fun _ => refines_bind inner fun _ => refines_pure _
  case h_36 | h_37 => exact decimal _
  case h_38 => exact refines_bind field fun _ => refines_bind refines_bool fun _ => refines_pure _
  case h_39 => exact refines_bind field fun _ => refines_bind field fun _ => refines_pure _
  case h_40 => exact refines_fail _
  all_goals exact refines_pure _

end Types

theorem ArrowType.refines_read {depth more : Nat} (deeper : depth ≤ more) :
    (ArrowType.read depth).Refines (ArrowType.read more) := by
  induction depth generalizing more with
  | zero => exact refines_fail _
  | succ depth induction =>
      cases more with
      | zero => omega
      | succ more =>
          exact refines_bind refines_tag fun tag =>
            refines_readParts (induction (by omega)) tag

theorem Schema.refines_read {depth more : Nat} (deeper : depth ≤ more) :
    (Schema.read depth).Refines (Schema.read more) :=
  refines_bind (refines_counted (Field.refines_read (ArrowType.refines_read deeper))) fun _ =>
    refines_bind refines_metadata fun _ => refines_pure _

theorem Descriptor.refines_read : Descriptor.read.Refines Descriptor.read :=
  refines_bind refines_bytes fun _ => refines_bind refines_uint64 fun _ =>
    refines_bind refines_uint64 fun _ => refines_pure _

theorem HandleTree.refines_read {depth more : Nat} (deeper : depth ≤ more) :
    (HandleTree.read depth).Refines (HandleTree.read more) := by
  induction depth generalizing more with
  | zero => exact refines_fail _
  | succ depth induction =>
      cases more with
      | zero => omega
      | succ more =>
          have descriptor := refines_option Descriptor.refines_read
          have children := refines_counted (induction (show depth ≤ more by omega))
          exact refines_bind refines_uint64 fun _ => refines_bind refines_uint64 fun _ =>
            refines_bind descriptor fun _ => refines_bind descriptor fun _ =>
              refines_bind children fun _ => refines_pure _

namespace Message

theorem refines_read {depth more : Nat} (deeper : depth ≤ more) :
    (Message.read depth).Refines (Message.read more) :=
  refines_bind (Varint.refines_decodeBelow 32) fun _ => refines_bind refines_int32 fun _ =>
    refines_bind refines_int64 fun _ => refines_bind (Schema.refines_read deeper) fun _ =>
      refines_bind (refines_counted (HandleTree.refines_read deeper)) fun _ => refines_pure _

variable {message : Message}

/-- A message read from less than the body would be read from the body as well, with something left
over. -/
theorem ofBody?_cut (sized : Bytes.Addressable message.body) {cut rest : Bytes}
    (whole : message.body = cut ++ rest) (missing : rest ≠ []) : ofBody? cut = none := by
  have shorter : cut.length ≤ message.body.length := by simp [whole]
  unfold ofBody?
  split
  case h_2 => rfl
  case h_1 other allowance read =>
    obtain ⟨front, split, -, reads⟩ := refines_read shorter _ _ _ read
    rw [List.append_nil] at split
    subst split
    have early := reads rest rest.length
    have full := reads_body (Nat.le_refl _) sized [] 0
    rw [List.append_nil, Nat.add_zero] at full
    rw [← List.length_append, ← whole, full] at early
    cases early
    contradiction

theorem ofBody?_extended (sized : Bytes.Addressable message.body) {extra : Bytes}
    (added : extra ≠ []) : ofBody? (message.body ++ extra) = none := by
  have longer : message.body.length ≤ (message.body ++ extra).length := by simp
  have read := reads_body longer sized extra extra.length
  rw [← List.length_append] at read
  obtain ⟨first, others, rfl⟩ := List.exists_cons_of_ne_nil added
  rw [ofBody?, read]

/-- The bytes are turned down as a malformed message, and opening the table in them does nothing but
fail. -/
def Refused (bytes : Bytes) : Prop :=
  ∃ fault, decode bytes = .error fault ∧ fault.kind = .transport ∧
    SharedTable.ofBytes bytes = Action.fail fault

theorem refused_of_error {bytes : Bytes} {fault : Error} (failed : decode bytes = .error fault)
    (kind : fault.kind = .transport) : Refused bytes := by
  refine ⟨fault, failed, kind, ?_⟩
  unfold SharedTable.ofBytes
  rw [failed]
  rfl

theorem refused_of_ofBody? {body : Bytes} (unreadable : ofBody? body = none) :
    Refused (magic ++ body) := by
  have taken : (magic ++ body).take magic.length = magic := by simp
  have dropped : (magic ++ body).drop magic.length = body := by simp
  have failed : decode (magic ++ body) = .error .undecodable := by
    rw [decode, taken, dropped, unreadable]
    rfl
  exact refused_of_error failed rfl

theorem refused_cut (sized : Bytes.Addressable message.body) {cut : Bytes}
    (before : cut <+: message.encode) (shorter : cut ≠ message.encode) : Refused cut := by
  by_cases marked : cut.take magic.length = magic
  · have split := List.take_append_drop magic.length cut
    rw [marked] at split
    obtain ⟨body, rfl⟩ : ∃ body, magic ++ body = cut := ⟨_, split⟩
    rw [encode, List.prefix_append_right_inj] at before
    obtain ⟨rest, whole⟩ := before
    apply refused_of_ofBody?
    apply ofBody?_cut sized whole.symm
    rintro rfl
    rw [List.append_nil] at whole
    exact shorter (by rw [encode, whole])
  · have failed : decode cut = .error .missingMagic := by
      rw [decode, if_pos marked]
    exact refused_of_error failed rfl

/-- Of all byte strings that a message begins with or that begin with it, only the message itself is
accepted. -/
theorem delimited (current : message.version = currentVersion)
    (sized : Bytes.Addressable message.encode) :
    decode message.encode = .ok message ∧
      ∀ bytes, bytes <+: message.encode ∨ message.encode <+: bytes → bytes ≠ message.encode →
        Refused bytes := by
  refine ⟨decode_current current sized, fun bytes comparable different => ?_⟩
  have bodySized := addressable_body sized
  obtain cut | extended := comparable
  · exact refused_cut bodySized cut different
  · obtain ⟨extra, rfl⟩ := extended
    have added : extra ≠ [] := by
      rintro rfl
      exact different (List.append_nil _)
    rw [encode, List.append_assoc]
    exact refused_of_ofBody? (ofBody?_extended bodySized added)

/-- Cut off inside the magic and inside the types of the schema, and extended by one byte. -/
theorem delimited_nested :
    nested.version = currentVersion ∧ Bytes.Addressable nested.encode ∧
      Refused (nested.encode.take 5) ∧ Refused (nested.encode.take 40) ∧
      Refused (nested.encode ++ [0]) := by
  have current : nested.version = currentVersion := rfl
  have sized : Bytes.Addressable nested.encode := by
    unfold Bytes.Addressable
    decide +kernel
  have refused := (delimited current sized).2
  have cut (count : Nat) (shorter : nested.encode.take count ≠ nested.encode) :
      Refused (nested.encode.take count) := refused _ (.inl (List.take_prefix _ _)) shorter
  refine ⟨current, sized, cut 5 (by decide +kernel), cut 40 (by decide +kernel), ?_⟩
  exact refused _ (.inr (List.prefix_append _ _)) (by simp)

end Message

end DeviceColumns
