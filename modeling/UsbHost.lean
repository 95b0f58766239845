import UsbHost.Bench.Mailbox
import UsbHost.Bench.Readings
import UsbHost.Bench.Session
import UsbHost.Board.Peripherals
import UsbHost.Proofs.Machine.Yields
import UsbHost.Proofs.Simulation.Leads
import UsbHost.Proofs.Simulation.ReceiveQueue
import UsbHost.Proofs.Simulation.Exchange
import UsbHost.Proofs.Simulation.ControlPacket
import UsbHost.Proofs.Simulation.ControlTransfer
import UsbHost.Proofs.Driver.Reachable
import UsbHost.Proofs.Simulation.Bytes
import UsbHost.Proofs.Simulation.RootPort
import UsbHost.Proofs.Simulation.Bringup
import UsbHost.Proofs.Simulation.Requests
import UsbHost.Proofs.Simulation.Standing
import UsbHost.Proofs.Simulation.Enumeration
import UsbHost.Proofs.Simulation.Startup
import UsbHost.Proofs.Simulation.Agreement
import UsbHost.Proofs.Host.Buffers
import UsbHost.Proofs.Host.Protocol
import UsbHost.Proofs.Machine.Always
import UsbHost.Proofs.Driver.Withstands
import UsbHost.Proofs.Driver.PortLaw
import UsbHost.Proofs.Driver.Programming
import UsbHost.Proofs.Driver.Gates
import UsbHost.Proofs.Simulation.Overlay
import UsbHost.Proofs.Simulation.PortKept
import UsbHost.Proofs.Simulation.Framing
import UsbHost.Proofs.Simulation.Residue
import UsbHost.Proofs.Simulation.GivingUp
import UsbHost.Proofs.Simulation.Discovery
import UsbHost.Proofs.Simulation.Delivery
import UsbHost.Proofs.Simulation.Quiescence
import UsbHost.Proofs.Machine.Resolves
import UsbHost.Proofs.Driver.Endings
import UsbHost.Proofs.Host.Answers
import UsbHost.Proofs.Driver.EnumerationScript
import UsbHost.Proofs.Driver.DataToggle
import UsbHost.Proofs.Driver.Pollable
import UsbHost.Proofs.Firmware.PowerGate
import UsbHost.Proofs.Driver.Panics
import UsbHost.Proofs.Simulation.Transactions
import UsbHost.Proofs.Simulation.Completion
import UsbHost.Proofs.Simulation.Draining
import UsbHost.Proofs.Driver.Outcomes
import UsbHost.Proofs.Driver.Confinement
import UsbHost.Proofs.Host.Untouched
import UsbHost.Proofs.Driver.BringupScript
import UsbHost.Proofs.Simulation.BusReset
import UsbHost.Proofs.Firmware.ReplyMatching
import UsbHost.Proofs.Machine.Patience
import UsbHost.Proofs.Firmware.ReplyFlood
import UsbHost.Proofs.Wire.EndpointSearch
import UsbHost.Proofs.Driver.ConfigurationValue
import UsbHost.Proofs.Host.Detection
import UsbHost.Proofs.Gamepad.Edges
import UsbHost.Proofs.Machine.Expiry
import UsbHost.Proofs.Core.Divisions
