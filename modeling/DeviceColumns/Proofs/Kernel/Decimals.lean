import DeviceColumns.Proofs.Kernel.Sources

/-!
Widening keeps every number. Each complete value of 32 or 64 bits is found again, at the same place
in the order, as the same number of 128 bits; the rest of an incomplete last value is ignored.
-/

namespace DeviceColumns

set_option autoImplicit false

namespace NarrowDecimal

variable {decimal : NarrowDecimal}

/-- The wide bytes are the values of the narrow ones in sixteen bytes each: the same numbers, read
as signed and with the least significant byte first. -/
structure Widened (decimal : NarrowDecimal) (narrow wide : Bytes) : Prop where
  length : wide.length = 16 * (narrow.length / decimal.width)
  value : ∀ index < narrow.length / decimal.width,
    Bytes.toInt ((wide.drop (16 * index)).take 16) =
      Bytes.toInt ((narrow.drop (decimal.width * index)).take decimal.width)

theorem widen_widened (decimal : NarrowDecimal) (narrow : Bytes) :
    decimal.Widened narrow (decimal.widen narrow) where
  length := by rw [length_widen, wideWidth, Nat.mul_comm]
  value := by
    intro index inside
    have pieces : (decimal.widen narrow).length / wideWidth = narrow.length / decimal.width := by
      rw [length_widen, Nat.mul_div_cancel _ (by decide)]
    have numbers := congrArg (fun numbers => numbers[index]?) (toInt_widen decimal narrow)
    rw [Bytes.slices_eq, Bytes.slices_eq, pieces] at numbers
    simp only [List.getElem?_map, List.getElem?_range inside, Option.map_some, Option.some.injEq,
      wideWidth] at numbers
    rwa [Nat.mul_comm 16, Nat.mul_comm decimal.width]

theorem widenAt_converts {machine : Machine} {resource : Resource} (decimal : NarrowDecimal)
    (formed : machine.heap.WellFormed) (sound : resource.Sound machine.ledgers.length)
    (source : Nat) {count : Nat} (fits : 16 * count < 2 ^ 64) :
    Buffer.Converts machine resource source (count * decimal.width) (16 * count) decimal.Widened
      (decimal.widenAt source count resource) := by
  have empty : 16 * count = 0 ↔ count * decimal.width = 0 := by
    cases decimal <;> simp only [width] <;> omega
  rw [Nat.mul_comm] at fits
  rw [decimal.widenAt_eq source resource fits, wideWidth, Nat.mul_comm count 16]
  refine Buffer.ofSource_converts formed sound empty fun narrow counted => ?_
  have widened := widen_widened decimal narrow
  refine ⟨?_, widened⟩
  rw [widened.length, counted, Nat.mul_div_cancel _ decimal.width_pos]

/-- With more values the lengths are no longer exact: here both come to nothing. -/
example (source : Nat) (resource : Resource) (machine : Machine) :
    bits32.widenAt source (2 ^ 62) resource machine = (.ok ⟨none, 0, resource⟩, machine) := rfl

end NarrowDecimal

namespace Session

variable {session : Session} {via : String} {resource : Resource}

/-- Widening is exact, in host memory and from one place of device memory to another as long as a
word can hold the length of the result, which it can for whatever a live block holds. -/
structure Widens (session : Session) (resource : Resource) (decimal : NarrowDecimal) : Prop where
  host : ∀ narrow, decimal.Widened narrow (decimal.widen narrow)
  counted : ∀ source count,
    session.machine.heap.Covers source (count * decimal.width) → 16 * count < 2 ^ 64
  device : ∀ source count, 16 * count < 2 ^ 64 →
    Buffer.Converts session.machine resource source (count * decimal.width) (16 * count)
      decimal.Widened (decimal.widenAt source count resource)

theorem Reached.widens (reached : session.Reached)
    (provides : (session.find? via).bind Object.resource? = some resource)
    (decimal : NarrowDecimal) : session.Widens resource decimal where
  host := decimal.widen_widened
  counted := by
    intro source count covers
    rw [Nat.mul_comm]
    exact NarrowDecimal.wide_fits decimal.four_le_width (reached.wellFormed.covered_length covers)
  device := fun source _ =>
    decimal.widenAt_converts reached.wellFormed (reached.resource_sound provides) source

/-- Two numbers of 32 bits, one of them negative, in device memory. -/
def twoDecimals : Session :=
  (initial.perform (.buffer "d" (.bytes [5, 0, 0, 0, 254, 255, 255, 255]) "plain")).2

theorem Reached.widens_twoDecimals :
    twoDecimals.Widens .device .bits32 ∧
      (NarrowDecimal.bits32.widenAt arenaStart 2 .device twoDecimals.machine).1.toOption.map
        Buffer.length = some 32 ∧
      ((NarrowDecimal.bits32.widenAt arenaStart 2 .device twoDecimals.machine).2.heap.read
        (arenaStart + 144) 16).toOption.map Bytes.toInt = some (-2) := by
  have reached : Reached twoDecimals :=
    Reached.initial.step (.buffer "d" (.bytes [5, 0, 0, 0, 254, 255, 255, 255]) "plain")
  have provides : (twoDecimals.find? "plain").bind Object.resource? = some .device := rfl
  exact ⟨reached.widens provides .bits32, by decide +kernel, by decide +kernel⟩

/-- No byte of an empty memory is readable; yet one value is widened from where its result will be,
because the result has its place when the value is read. -/
theorem initial_widens_own_output :
    (initial.machine.heap.read arenaStart 4).toOption = none ∧
      ∃ wide after, NarrowDecimal.bits32.widenAt arenaStart 1 .device initial.machine =
          (.ok wide, after) ∧
        after.heap.isLive arenaStart = true :=
  ⟨rfl, ⟨some arenaStart, 16, .device⟩, _, rfl, rfl⟩

end Session

end DeviceColumns
