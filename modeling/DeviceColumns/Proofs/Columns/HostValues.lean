import DeviceColumns.Column.Type
import DeviceColumns.Proofs.Kernel.Packing
import Mathlib.Tactic.SplitIfs

/-!
Host values as bytes. A value that fits into its host type is decoded from the bytes that it was
encoded as, and so are all values of a list that were written one behind the other.
-/

namespace DeviceColumns.HostType

set_option autoImplicit false

variable {host : HostType} {value : Int} {values : List Int}

theorem width_pos (host : HostType) : 0 < host.width := by
  cases host <;> decide

/-- The value is one of the numbers that the host type has. -/
def Fits (host : HostType) (value : Int) : Prop :=
  if host.isSigned then
    -(256 ^ host.width : Nat) ≤ 2 * value ∧ 2 * value < (256 ^ host.width : Nat)
  else 0 ≤ value ∧ value < (256 ^ host.width : Nat)

instance (host : HostType) (value : Int) : Decidable (host.Fits value) :=
  inferInstanceAs (Decidable (ite (host.isSigned = true) _ _))

theorem length_encode (host : HostType) (value : Int) : (host.encode value).length = host.width :=
  Bytes.length_ofNat _ _

theorem length_flatMap_encode (host : HostType) (values : List Int) :
    (values.flatMap host.encode).length = values.length * host.width := by
  rw [List.length_flatMap, List.map_congr_left fun value _ => host.length_encode value,
    List.map_const', List.sum_replicate_nat]

theorem decode_encode_of_fits (fits : host.Fits value) :
    host.decode (host.encode value) = value := by
  unfold Fits at fits
  unfold decode encode
  split_ifs at fits ⊢ with signed
  · exact Bytes.toInt_ofInt fits.1 fits.2
  · have residue : value % (256 ^ host.width : Nat) = value := Int.emod_eq_of_lt fits.1 fits.2
    rw [Bytes.ofInt, residue, Bytes.toNat_ofNat, Nat.mod_eq_of_lt (by omega)]
    exact Int.toNat_of_nonneg fits.1

theorem decode_slices (fit : ∀ value ∈ values, host.Fits value) :
    (Bytes.slices host.width (values.flatMap host.encode)).map host.decode = values := by
  rw [Bytes.slices_flatMap host.width_pos fun value _ => host.length_encode value, List.map_map]
  exact (List.map_congr_left fun value member => decode_encode_of_fits (fit value member)).trans
    (List.map_id values)

end DeviceColumns.HostType
