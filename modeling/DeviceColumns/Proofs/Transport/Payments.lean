import DeviceColumns.Proofs.Transport.Delimiting

/-!
Readers pay for what they find with the bytes that they take off. Any size may be asked for; what
has been paid so far is kept as a credit, and the value that is put together in the end is covered
by it. Two readers are followed at once, one that stops at some depth of nesting and one that goes
further: it is the same count of bytes that bounds what the first finds and shows that the second
finds nothing else.
-/

namespace DeviceColumns

set_option autoImplicit false

open Reader Wire

variable {Value Next : Type}

namespace Reader

variable {room left credit : Nat} {size : Value → Nat} {total : Next → Nat}

/-- On inputs of at most `room` bytes the two readers agree, and what they find has been paid for:
the bytes taken off and the credit cover its size. -/
structure Pays (room credit : Nat) (size : Value → Nat) (short long : Reader Value) : Prop where
  same : ∀ input, input.bytes.length ≤ room → long input = short input
  paid : ∀ input value rest, input.bytes.length ≤ room → short input = some (value, rest) →
    size value + rest.bytes.length ≤ credit + input.bytes.length

theorem pays_fail : Pays room credit size fail fail where
  same := fun _ _ => rfl
  paid := fun _ _ _ _ found => nomatch found

theorem pays_pure (value : Value) (covered : size value ≤ credit) :
    Pays room credit size (pure value) (pure value) where
  same := fun _ _ => rfl
  paid := by
    rintro input found rest - ⟨⟩
    omega

theorem pays_ofOption {choice : Option Value}
    (covered : ∀ value, choice = some value → size value ≤ credit) :
    Pays room credit size (ofOption choice) (ofOption choice) := by
  cases choice with
  | none => exact pays_fail
  | some value => exact pays_pure value (covered value rfl)

/-- Without bytes to read it does not matter where a reader stops that would start with one. -/
theorem pays_nothing {long : Reader Value} (empty : ∀ allowance, long ⟨[], allowance⟩ = none) :
    Pays 0 credit size fail long where
  same := by
    rintro ⟨bytes, allowance⟩ within
    obtain rfl := List.length_eq_zero_iff.mp (Nat.le_zero.mp within)
    exact empty allowance
  paid := fun _ _ _ _ found => nomatch found

/-- What the first reader takes off is paid to the second, which then has less left to read. -/
theorem pays_bind_within {short long : Reader Value} {next after : Value → Reader Next}
    (head : Pays room 0 size short long) (shorter : ∀ value, room ≤ left + size value)
    (tail : ∀ value, Pays left (credit + size value) total (next value) (after value)) :
    Pays room credit total (short >>= next) (long >>= after) where
  same := by
    intro input within
    rw [bind_apply, bind_apply, head.same input within]
    cases first : short input with
    | none => rfl
    | some taken =>
        obtain ⟨value, middle⟩ := taken
        have paid := head.paid input value middle within first
        have enough := shorter value
        exact (tail value).same middle (by omega)
  paid := by
    intro input result rest within read
    rw [bind_apply] at read
    cases first : short input with
    | none => simp [first] at read
    | some taken =>
        obtain ⟨value, middle⟩ := taken
        rw [first] at read
        have paid := head.paid input value middle within first
        have enough := shorter value
        have paidRest := (tail value).paid middle result rest (by omega) read
        omega

theorem pays_bind {short long : Reader Value} {next after : Value → Reader Next}
    (head : Pays room 0 size short long)
    (tail : ∀ value, Pays room (credit + size value) total (next value) (after value)) :
    Pays room credit total (short >>= next) (long >>= after) :=
  pays_bind_within head (fun _ => Nat.le_add_right _ _) tail

theorem pays_byte : Pays room 0 (fun _ => 1) byte byte where
  same := fun _ _ => rfl
  paid := by
    rintro ⟨_ | ⟨first, others⟩, _ | allowance⟩ value rest - read <;> cases read
    simp only [List.length_cons]
    omega

theorem pays_take (count : Nat) : Pays room 0 List.length (take count) (take count) where
  same := fun _ _ => rfl
  paid := by
    intro input bytes rest _ read
    unfold take at read
    split_ifs at read with enough
    cases read
    simp only [List.length_take, List.length_drop]
    omega

/-- The sizes of the elements add up to the size of the list. -/
theorem pays_many {short long : Reader Value} {sizes : List Value → Nat}
    (each : Pays room 0 size short long) (none : sizes [] = 0)
    (some : ∀ value values, sizes (value :: values) ≤ size value + sizes values) (count : Nat) :
    Pays room 0 sizes (short.many count) (long.many count) := by
  induction count with
  | zero => exact pays_pure [] (Nat.le_of_eq none)
  | succ count induction =>
      refine pays_bind each fun value => pays_bind induction fun values => pays_pure _ ?_
      have added := some value values
      omega

theorem length_many {reader : Reader Value} {count : Nat} {input rest : Input}
    {values : List Value} (read : reader.many count input = some (values, rest)) :
    values.length = count := by
  induction count generalizing input values rest with
  | zero =>
      cases read
      rfl
  | succ count induction =>
      rw [many, bind_apply] at read
      cases first : reader input with
      | none => simp [first] at read
      | some taken =>
          obtain ⟨value, middle⟩ := taken
          simp only [first, bind_apply] at read
          cases others : reader.many count middle with
          | none => simp [others] at read
          | some found =>
              obtain ⟨more, last⟩ := found
              rw [others] at read
              cases read
              rw [List.length_cons, induction others]

/-- A reader that only takes bytes off the front leaves the credit to what follows. -/
theorem Refines.pays {reader : Reader Value} (refines : reader.Refines reader) (credit : Nat) :
    Pays room credit (fun _ => credit) reader reader where
  same := fun _ _ => rfl
  paid := by
    intro input value rest _ read
    obtain ⟨front, split, -, -⟩ := refines input value rest read
    rw [split, List.length_append]
    omega

theorem Pays.lend {short long : Reader Value} (pays : Pays room 0 size short long) (credit : Nat) :
    Pays room credit (fun value => credit + size value) short long where
  same := pays.same
  paid := by
    intro input value rest within read
    have paid := pays.paid input value rest within read
    omega

/-- No count is met for free: if every element takes up a byte, then a list of more elements than
there are bytes cannot be read. -/
theorem Pays.many_eq_none {reader : Reader Value} {input : Input}
    (each : Pays input.bytes.length 0 size reader reader) (positive : ∀ value, 0 < size value)
    {count : Nat} (more : input.bytes.length < count) : reader.many count input = none := by
  have counted : Pays input.bytes.length 0 List.length (reader.many count) (reader.many count) := by
    refine pays_many each rfl (fun value values => ?_) count
    have taken := positive value
    rw [List.length_cons]
    omega
  cases read : reader.many count input with
  | none => rfl
  | some found =>
      obtain ⟨values, rest⟩ := found
      have paid := counted.paid input values rest (Nat.le_refl _) read
      rw [length_many read] at paid
      omega

end Reader

namespace Wire

variable {room : Nat} {size : Value → Nat}

def utf8 (text : String) : Bytes := text.toUTF8.data.toList

theorem pays_decode : Pays room 0 (fun _ => 1) Varint.decode Varint.decode := by
  refine pays_bind pays_byte fun first => Refines.pays ?_ 1
  refine refines_ite _ (refines_pure _) <| refines_ite _ (refines_fixed 2) <|
    refines_ite _ (refines_fixed 4) <| refines_ite _ (refines_fixed 8) (refines_fail _)

theorem pays_below (bits : Nat) :
    Pays room 0 (fun _ => 1) (Varint.decodeBelow bits) (Varint.decodeBelow bits) :=
  pays_bind pays_decode fun _ =>
    (refines_ite _ (refines_pure _) (refines_fail _)).pays 1

theorem pays_tag : Pays room 0 (fun _ => 1) readTag readTag := pays_below 32

theorem pays_uint64 : Pays room 0 (fun _ => 1) readUInt64 readUInt64 :=
  pays_bind (pays_below 64) fun _ => pays_pure _ (Nat.le_refl 1)

theorem pays_bytes : Pays room 0 (fun bytes => 1 + bytes.length) readBytes readBytes :=
  pays_bind (pays_below 64) fun count => (pays_take count).lend 1

theorem pays_string : Pays room 0 (fun text => 1 + (utf8 text).length) readString readString := by
  refine pays_bind pays_bytes fun encoded => pays_ofOption fun text decoded => ?_
  unfold String.fromUTF8? at decoded
  split_ifs at decoded
  cases decoded
  simp [utf8, String.fromUTF8]

theorem pays_option {short long : Reader Value} (part : Pays room 0 size short long) :
    Pays room 0 (fun choice => (choice.map size).getD 0) (readOption short) (readOption long) := by
  refine pays_bind (refines_bool.pays 0) fun present => ?_
  cases present
  · exact pays_pure none (Nat.zero_le _)
  · exact pays_bind part fun value => pays_pure (some value) (by simp)

theorem pays_counted {short long : Reader Value} {sizes : List Value → Nat}
    (each : Pays room 0 size short long) (none : sizes [] = 0)
    (some : ∀ value values, sizes (value :: values) ≤ size value + sizes values) :
    Pays room 0 sizes (readMany short) (readMany long) :=
  pays_bind (refines_count.pays 0) (pays_many each none some)

end Wire

end DeviceColumns
