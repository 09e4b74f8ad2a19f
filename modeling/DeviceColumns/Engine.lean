import DeviceColumns.Column.Basic

/-!
An engine bundles what a caller would otherwise pass around: the resource to allocate from, with
books if wanted, and how strictly memory is checked before it is shared.
-/

namespace DeviceColumns

set_option autoImplicit false

/-- How an engine is set up. Without an accelerator it runs on the host backend. -/
structure EngineConfig where
  accelerator : Option Nat := none
  strict : Bool := true
  tracked : Bool := false

structure Engine where
  config : EngineConfig
  device : Device
  resource : Resource

namespace Engine

def create (config : EngineConfig) : ColumnAction Engine := fun machine =>
  match config.accelerator with
  | some ordinal => (.error (.device (.noAccelerator ordinal)), machine)
  | none =>
      if config.tracked then
        let (resource, after) := machine.track .device
        (.ok ⟨config, .host, resource⟩, after)
      else (.ok ⟨config, .host, .device⟩, machine)

end Engine

end DeviceColumns
