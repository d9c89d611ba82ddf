import FlashHost.Archive
import FlashHost.CommandLine
import FlashHost.CommandLine.Command
import FlashHost.Device.Descriptor
import FlashHost.Device.Filter
import FlashHost.Device.Script
import FlashHost.Discovery
import FlashHost.Discovery.Roster
import FlashHost.Error
import FlashHost.Event
import FlashHost.Fault
import FlashHost.Files
import FlashHost.Files.Tree
import FlashHost.Main
import FlashHost.Note
import FlashHost.Operation
import FlashHost.Outcome
import FlashHost.Package
import FlashHost.Program
import FlashHost.Program.Arguments
import FlashHost.Proofs.Archive.Capacity
import FlashHost.Proofs.Archive.Naming
import FlashHost.Proofs.Archive.Taking
import FlashHost.Proofs.CommandLine.Composition
import FlashHost.Proofs.CommandLine.Cursor
import FlashHost.Proofs.CommandLine.Cutting
import FlashHost.Proofs.CommandLine.Eligibility
import FlashHost.Proofs.CommandLine.Layout
import FlashHost.Proofs.CommandLine.Queueing
import FlashHost.Proofs.CommandLine.Quiet
import FlashHost.Proofs.CommandLine.Reading
import FlashHost.Proofs.CommandLine.Rearranging
import FlashHost.Proofs.CommandLine.Safety
import FlashHost.Proofs.CommandLine.Table
import FlashHost.Proofs.Device.Filter
import FlashHost.Proofs.Device.Information
import FlashHost.Proofs.Device.Script
import FlashHost.Proofs.Discovery.Acquisition
import FlashHost.Proofs.Discovery.Concurrence
import FlashHost.Proofs.Discovery.Offering
import FlashHost.Proofs.Discovery.Provenance
import FlashHost.Proofs.Loading
import FlashHost.Proofs.Outcome
import FlashHost.Proofs.Package
import FlashHost.Proofs.Package.Planning
import FlashHost.Proofs.Program.Display
import FlashHost.Proofs.Program.Target
import FlashHost.Proofs.Progress.Bracketing
import FlashHost.Proofs.Progress.Phase
import FlashHost.Proofs.Progress.Printing
import FlashHost.Proofs.Progress.Transcript
import FlashHost.Proofs.Protocol.Alike
import FlashHost.Proofs.Protocol.Composition
import FlashHost.Proofs.Protocol.Invariant
import FlashHost.Proofs.Protocol.Relation
import FlashHost.Proofs.Protocol.Reply
import FlashHost.Proofs.Protocol.Secrecy
import FlashHost.Proofs.Protocol.Session
import FlashHost.Proofs.Text.Blank
import FlashHost.Proofs.Text.Denotation
import FlashHost.Proofs.Text.Numeral
import FlashHost.Proofs.Text.Utf8
import FlashHost.Proofs.Usb.Conveyance
import FlashHost.Proofs.Usb.Endpoints
import FlashHost.Proofs.Usb.Enumeration
import FlashHost.Proofs.Usb.Listing
import FlashHost.Proofs.Usb.Receiving
import FlashHost.Proofs.Usb.Slicing
import FlashHost.Proofs.Usb.Transfers
import FlashHost.Proofs.VendorId
import FlashHost.Proofs.Wire.Acceptance
import FlashHost.Proofs.Wire.Account
import FlashHost.Proofs.Wire.Announcement
import FlashHost.Proofs.Wire.Conversation
import FlashHost.Proofs.Wire.Course
import FlashHost.Proofs.Wire.Delivery
import FlashHost.Proofs.Wire.Exchange
import FlashHost.Proofs.Wire.Failure
import FlashHost.Proofs.Wire.Following
import FlashHost.Proofs.Wire.HalfDuplex
import FlashHost.Proofs.Wire.Informing
import FlashHost.Proofs.Wire.Packet
import FlashHost.Proofs.Wire.Parcel
import FlashHost.Proofs.Wire.Plan
import FlashHost.Proofs.Wire.Position
import FlashHost.Proofs.Wire.Precedence
import FlashHost.Proofs.Wire.Sending
import FlashHost.Proofs.Wire.Serving
import FlashHost.Proofs.Wire.Tally
import FlashHost.Protocol.Download
import FlashHost.Protocol.Execution
import FlashHost.Protocol.Reply
import FlashHost.Protocol.Response
import FlashHost.Protocol.Session
import FlashHost.Protocol.Transport
import FlashHost.Queue
import FlashHost.Reboot
import FlashHost.Terminal
import FlashHost.Text.Blank
import FlashHost.Text.Numeral
import FlashHost.Text.Quoted
import FlashHost.Text.Seconds
import FlashHost.Text.Unprintable
import FlashHost.Text.Utf8
import FlashHost.Usage
import FlashHost.Usb.Bus
import FlashHost.Usb.Connection
import FlashHost.Usb.Host
import FlashHost.VendorId
import FlashHost.Zip
import FlashHost.Zip.Checksum
import FlashHost.Zip.Codepage
import FlashHost.Zip.Content
import FlashHost.Zip.Deflate.Bits
import FlashHost.Zip.Deflate.Code
import FlashHost.Zip.Deflate.Inflate
import FlashHost.Zip.Directory
import FlashHost.Zip.ExtraField
import FlashHost.Zip.Fault
import FlashHost.Zip.Field
import FlashHost.Zip.Member
import FlashHost.Zip.Record
