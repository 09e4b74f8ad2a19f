import DeviceColumns.Kernel.Launch
import DeviceColumns.Session.Perform
import DeviceColumns.Proofs.Transport.Parts
import DeviceColumns.Proofs.Transport.RoundTrip
import DeviceColumns.Proofs.Transport.Delimiting
import DeviceColumns.Proofs.Transport.Payments
import DeviceColumns.Proofs.Transport.Sizes
import DeviceColumns.Proofs.Memory.Blocks
import DeviceColumns.Proofs.Memory.Books
import DeviceColumns.Proofs.Memory.Resources
import DeviceColumns.Proofs.Memory.Contents
import DeviceColumns.Proofs.Memory.Calls
import DeviceColumns.Proofs.Memory.Tracking
import DeviceColumns.Proofs.Memory.History
import DeviceColumns.Proofs.Memory.Ranges
import DeviceColumns.Proofs.Kernel.Packing
import DeviceColumns.Proofs.Kernel.Words
import DeviceColumns.Proofs.Kernel.Conversions
import DeviceColumns.Proofs.Kernel.Sources
import DeviceColumns.Proofs.Kernel.Masks
import DeviceColumns.Proofs.Kernel.Decimals
import DeviceColumns.Proofs.Kernel.Launches
import DeviceColumns.Proofs.Triple
import DeviceColumns.Proofs.Custody.Invariant
import DeviceColumns.Proofs.Custody.Exchange
import DeviceColumns.Proofs.Custody.Contents
import DeviceColumns.Proofs.Custody.Liveness
import DeviceColumns.Proofs.Custody.Columns
import DeviceColumns.Proofs.Custody.Sharing
import DeviceColumns.Proofs.Custody.Sessions
import DeviceColumns.Proofs.Custody.Requests
import DeviceColumns.Proofs.Custody.Steps
import DeviceColumns.Proofs.Custody.Runs
import DeviceColumns.Proofs.Custody.OpenMappings
import DeviceColumns.Proofs.Custody.Warnings
import DeviceColumns.Proofs.Isolation.Confinement
import DeviceColumns.Proofs.Isolation.Requests
import DeviceColumns.Proofs.Isolation.Runs
import DeviceColumns.Proofs.Isolation.Readback
import DeviceColumns.Proofs.Sharing.Opening
import DeviceColumns.Proofs.Sharing.MappingCounts
import DeviceColumns.Proofs.Sharing.Coverage
import DeviceColumns.Proofs.Sharing.Handles
import DeviceColumns.Proofs.Sharing.LiveHandles
import DeviceColumns.Proofs.Sharing.Layout
import DeviceColumns.Proofs.Sharing.RoundTrip
import DeviceColumns.Proofs.Sharing.Rebuilding
import DeviceColumns.Proofs.Sharing.Strictness
import DeviceColumns.Proofs.Schema.Walk
import DeviceColumns.Proofs.Schema.LeafTypes
import DeviceColumns.Proofs.Columns.Parts
import DeviceColumns.Proofs.Columns.Stored
import DeviceColumns.Proofs.Columns.HostValues
import DeviceColumns.Proofs.Columns.Readback
import DeviceColumns.Proofs.Columns.Strings
import DeviceColumns.Proofs.Columns.Layout
import DeviceColumns.Proofs.Arrays.Conversion
import DeviceColumns.Proofs.Arrays.Built
import DeviceColumns.Proofs.Arrays.RowCounts
import DeviceColumns.Proofs.Arrays.Cells
import DeviceColumns.Proofs.Arrays.Contents
import DeviceColumns.Proofs.Arrays.Meaning
import DeviceColumns.Proofs.Arrays.Consumption
import DeviceColumns.Proofs.Arrays.Failure
import DeviceColumns.Proofs.Arrays.HandOver
