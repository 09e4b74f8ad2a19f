import DeviceColumns.Proofs.Kernel.Sources
import Mathlib.Order.Bounds.Basic

/-!
Packing keeps every boolean. The bits of a mask are the booleans in their order, and clear from
there on to the end of the mask: of the last word in host memory, of the padding in device memory.
-/

namespace DeviceColumns

set_option autoImplicit false

namespace Bitmask

/-- The mask begins with these bits and is clear behind them. -/
structure Keeps (mask : Bytes) (bits : List Bool) : Prop where
  room : bits.length ≤ 8 * mask.length
  entry : ∀ index < bits.length, isSet? mask index = bits[index]?
  clear : ∀ index < 8 * mask.length, bits.length ≤ index → isSet? mask index = some false

/-- Testing a bit of its byte is looking it up among all bits. -/
theorem isSet?_eq (mask : Bytes) (index : Nat) : isSet? mask index = (unpack mask)[index]? := by
  induction mask generalizing index with
  | nil => rfl
  | cons byte rest induction =>
      have bits := length_bitsOf byte
      rw [unpack_cons]
      by_cases inside : index < 8
      · have first : index / 8 = 0 := Nat.div_eq_of_lt inside
        rw [List.getElem?_append_left (by omega), getElem?_bitsOf byte inside, isSet?, first,
          Nat.mod_eq_of_lt inside]
        rfl
      · have behind : index / 8 = (index - 8) / 8 + 1 := by omega
        have same : index % 8 = (index - 8) % 8 := by omega
        rw [List.getElem?_append_right (by omega), bits, isSet?, behind, same]
        exact induction (index - 8)

theorem isSet?_packInto {length index : Nat} (bits : List Bool) (inside : index < 8 * length) :
    isSet? (packInto length bits) index = some (bits.getD index false) := by
  rw [isSet?_eq, unpack_packInto, List.getElem?_map, List.getElem?_range inside]
  rfl

theorem packInto_keeps {length : Nat} {bits : List Bool} (room : bits.length ≤ 8 * length) :
    Keeps (packInto length bits) bits where
  room := by rwa [length_packInto]
  entry := by
    intro index inside
    rw [isSet?_packInto bits (Nat.lt_of_lt_of_le inside room), List.getD_eq_getElem?_getD,
      List.getElem?_eq_getElem inside, Option.getD_some]
  clear := by
    intro index inside behind
    rw [length_packInto] at inside
    rw [isSet?_packInto bits inside, List.getD_eq_getElem?_getD, List.getElem?_eq_none behind,
      Option.getD_none]

/-- A mask in device memory is as short as the padding allows. -/
theorem allocationSize_isLeast (count : Nat) :
    IsLeast {size | 64 ∣ size ∧ count ≤ 8 * size} (allocationSize count) := by
  simp only [allocationSize, pieces, wordBytes_eq, padding]
  constructor
  · exact ⟨Nat.dvd_mul_left 64 _, by omega⟩
  · rintro size ⟨⟨parts, rfl⟩, room⟩
    omega

theorem ofBooleans_converts {machine : Machine} {resource : Resource}
    (formed : machine.heap.WellFormed) (sound : resource.Sound machine.ledgers.length)
    (source count : Nat) :
    Buffer.Converts machine resource source count (allocationSize count)
      (fun booleans mask => Keeps mask (booleans.map (· != 0)))
      (ofBooleans source count resource) := by
  rw [ofBooleans_eq]
  refine Buffer.ofSource_converts formed sound allocationSize_eq_zero fun booleans counted => ?_
  have room := (allocationSize_isLeast count).1.2
  exact ⟨length_packInto _ _, packInto_keeps (by rwa [List.length_map, counted])⟩

end Bitmask

namespace Session

variable {session : Session} {via : String} {resource : Resource}

/-- Packing is exact, in host memory and from one place of device memory to another: a mask of
whole words, or of as few multiples of 64 bytes as hold all bits, keeps the booleans. -/
structure Packs (session : Session) (resource : Resource) : Prop where
  host : ∀ bits, (Bitmask.pack bits).length = 4 * ((bits.length + 31) / 32) ∧
    Bitmask.Keeps (Bitmask.pack bits) bits
  padded : ∀ count, IsLeast {size | 64 ∣ size ∧ count ≤ 8 * size} (Bitmask.allocationSize count)
  device : ∀ source count,
    Buffer.Converts session.machine resource source count (Bitmask.allocationSize count)
      (fun booleans mask => Bitmask.Keeps mask (booleans.map (· != 0)))
      (Bitmask.ofBooleans source count resource)

theorem Reached.packs (reached : session.Reached)
    (provides : (session.find? via).bind Object.resource? = some resource) :
    session.Packs resource where
  host := by
    intro bits
    rw [Bitmask.pack_eq]
    exact ⟨Bitmask.length_packInto _ _, Bitmask.packInto_keeps (Bitmask.le_wordBytes _)⟩
  padded := Bitmask.allocationSize_isLeast
  device := Bitmask.ofBooleans_converts reached.wellFormed (reached.resource_sound provides)

/-- Three booleans in device memory. -/
def threeBooleans : Session :=
  (initial.perform (.buffer "b" (.bytes [1, 0, 7]) "plain")).2

theorem Reached.packs_threeBooleans :
    threeBooleans.Packs .device ∧
      (Bitmask.ofBooleans arenaStart 3 .device threeBooleans.machine).1.toOption.map
        Buffer.length = some 64 ∧
      ((Bitmask.ofBooleans arenaStart 3 .device threeBooleans.machine).2.heap.read
        (arenaStart + 128) 2).toOption = some [5, 0] := by
  have reached : Reached threeBooleans :=
    Reached.initial.step (.buffer "b" (.bytes [1, 0, 7]) "plain")
  have provides : (threeBooleans.find? "plain").bind Object.resource? = some .device := rfl
  exact ⟨reached.packs provides, by decide +kernel, by decide +kernel⟩

/-- No byte of an empty memory is readable; yet one boolean is packed from where the mask will be,
because the mask is there when the boolean is read. -/
theorem initial_packs_own_mask :
    (initial.machine.heap.read arenaStart 1).toOption = none ∧
      ∃ mask after, Bitmask.ofBooleans arenaStart 1 .device initial.machine = (.ok mask, after) ∧
        after.heap.isLive arenaStart = true :=
  ⟨rfl, ⟨some arenaStart, 64, .device⟩, _, rfl, rfl⟩

end Session

end DeviceColumns
