import ServiceInfo.Assembly
import ServiceInfo.Bytes
import ServiceInfo.Calendar
import ServiceInfo.Checksum
import ServiceInfo.Clock
import ServiceInfo.Descriptor
import ServiceInfo.Dvb.Clock
import ServiceInfo.Dvb.Eit
import ServiceInfo.Dvb.Nit
import ServiceInfo.Dvb.Sdt
import ServiceInfo.Fault
import ServiceInfo.Format
import ServiceInfo.Kind
import ServiceInfo.Layout
import ServiceInfo.Mpeg.Cat
import ServiceInfo.Mpeg.Pat
import ServiceInfo.Mpeg.Pmt
import ServiceInfo.Notice
import ServiceInfo.Packer
import ServiceInfo.Proofs.Assembly.Breaks
import ServiceInfo.Proofs.Assembly.Completion
import ServiceInfo.Proofs.Assembly.Delivery
import ServiceInfo.Proofs.Assembly.Editions
import ServiceInfo.Proofs.Assembly.Family
import ServiceInfo.Proofs.Assembly.Gather
import ServiceInfo.Proofs.Assembly.Members
import ServiceInfo.Proofs.Assembly.Receipt
import ServiceInfo.Proofs.Assembly.Repeats
import ServiceInfo.Proofs.Assembly.Run
import ServiceInfo.Proofs.Assembly.Schedule
import ServiceInfo.Proofs.Assembly.Sound
import ServiceInfo.Proofs.Bytes
import ServiceInfo.Proofs.Decoding
import ServiceInfo.Proofs.Descriptors
import ServiceInfo.Proofs.Dvb
import ServiceInfo.Proofs.EndToEnd
import ServiceInfo.Proofs.Mpeg
import ServiceInfo.Proofs.Packer.Contents
import ServiceInfo.Proofs.Packer.Fits
import ServiceInfo.Proofs.Packer.Keeps
import ServiceInfo.Proofs.Packer.Sections
import ServiceInfo.Proofs.Psip
import ServiceInfo.Proofs.Rack
import ServiceInfo.Proofs.Reads
import ServiceInfo.Proofs.Registry
import ServiceInfo.Proofs.Returned
import ServiceInfo.Proofs.RoundTrip.Flat
import ServiceInfo.Proofs.RoundTrip.Remnant
import ServiceInfo.Proofs.RoundTrip.Services
import ServiceInfo.Proofs.RoundTrip.Tallied
import ServiceInfo.Proofs.RoundTrip.TwoLoops
import ServiceInfo.Proofs.Router.Buffer
import ServiceInfo.Proofs.Router.Matching
import ServiceInfo.Proofs.Router.Plain
import ServiceInfo.Proofs.Router.Record
import ServiceInfo.Proofs.Router.Separate
import ServiceInfo.Proofs.Router.Watched
import ServiceInfo.Proofs.Section.Canonical
import ServiceInfo.Proofs.Section.Cuts
import ServiceInfo.Proofs.Section.Framing
import ServiceInfo.Proofs.Section.Row
import ServiceInfo.Proofs.Verbatim.OneSection
import ServiceInfo.Proofs.Verbatim.Readers
import ServiceInfo.Proofs.Verbatim.Tables
import ServiceInfo.Proofs.Written
import ServiceInfo.Psip.Eit
import ServiceInfo.Psip.Ett
import ServiceInfo.Psip.Mgt
import ServiceInfo.Psip.Stt
import ServiceInfo.Psip.Vct
import ServiceInfo.Rack
import ServiceInfo.Reader
import ServiceInfo.Receiver
import ServiceInfo.Registry
import ServiceInfo.Router
import ServiceInfo.Script
import ServiceInfo.Section
import ServiceInfo.Section.Walk
import ServiceInfo.Settings
import ServiceInfo.Subtable
import ServiceInfo.Text.Blank
import ServiceInfo.Text.Utf16
import ServiceInfo.Proofs.Packer.Pieces
import ServiceInfo.Proofs.Packer.Steps
import ServiceInfo.Proofs.Packer.Entities
import ServiceInfo.Proofs.Packer.Order
import ServiceInfo.Proofs.Packer.Numbered
import ServiceInfo.Proofs.Packer.Quiet
import ServiceInfo.Proofs.Sizes
import ServiceInfo.Proofs.Checksum
import ServiceInfo.Proofs.Guards
import ServiceInfo.Proofs.Refusals
import ServiceInfo.Proofs.Section.Damage
import ServiceInfo.Proofs.Section.Steps
import ServiceInfo.Proofs.Assembly.Ticks
import ServiceInfo.Proofs.RoundTrip.Offsets
import ServiceInfo.Proofs.Verbatim.Loops
import ServiceInfo.Proofs.Calendar
import ServiceInfo.Proofs.Clock
import ServiceInfo.Proofs.Clock.Durations
import ServiceInfo.Proofs.Checksum.Remainder
