import WasmGas.Main
import WasmGas.Assembly.Text
import WasmGas.Proofs.Binary
import WasmGas.Proofs.Wire.Numbers
import WasmGas.Proofs.Wire.ReadPast
import WasmGas.Proofs.Wire.Places
import WasmGas.Proofs.Wire.Truncation
import WasmGas.Proofs.Metering.Nesting
import WasmGas.Proofs.Metering.Overflow
import WasmGas.Proofs.Metering.Reported
import WasmGas.Proofs.Metering.TypeSpace
import WasmGas.Proofs.Metering.Conflicts
import WasmGas.Proofs.Metering.Terminators
import WasmGas.Proofs.Metering.Collisions
import WasmGas.Proofs.Metering.SectionOrder
import WasmGas.Proofs.Wire.Unwritable
import WasmGas.Proofs.Metering.Dearer
import WasmGas.Proofs.Metering.PricedShape
import WasmGas.Proofs.Metering.DebugNames
import WasmGas.Proofs.Price.CappedSums
import WasmGas.Proofs.Wire.NumberCode
import WasmGas.Proofs.CommandLine.Delivery
import WasmGas.Proofs.Wire.Size
import WasmGas.Proofs.Assembly.Printed
import WasmGas.Proofs.Assembly.Encoded
import WasmGas.Proofs.Price.Serialised
import WasmGas.Proofs.Metering.FloatCharges
import WasmGas.Proofs.Wire.Session
import WasmGas.Proofs.Assembly.Joined
