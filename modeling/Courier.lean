import Courier.Command.Rehearsal
import Courier.Main
import Courier.Proofs.Connection.Reading
import Courier.Proofs.Connection.Writing
import Courier.Proofs.Session.Memory
import Courier.Proofs.Tag
import Courier.Random.SelfTest
import Courier.Session.Report
import Courier.Session.Script
import Courier.Tampering
import Courier.Proofs.Connection.Acceptance
import Courier.Proofs.Mailbox.Operations
import Courier.Proofs.Session.Filling
import Courier.Proofs.Mailbox.Taking
import Courier.Proofs.Session.Failure
import Courier.Proofs.Mailbox.Lanes
import Courier.Proofs.Connection.Sealing
import Courier.Proofs.Session.KeyPaths
import Courier.Proofs.Cbor
import Courier.Proofs.Record
import Courier.Proofs.Connection.Roster
import Courier.Proofs.Connection.Window
import Courier.Proofs.Mailbox.Conservation
import Courier.Proofs.Mailbox.Introduction
import Courier.Proofs.Session.Completion
import Courier.Proofs.Session.Delivery
import Courier.Proofs.Session.OneWay
import Courier.Proofs.Session.Streams
import Courier.Proofs.Session.Arrival
import Courier.Proofs.Session.Acknowledgement
import Courier.Proofs.Session.Observed
import Courier.Proofs.Session.Accountability
import Courier.Proofs.Mailbox.Tandem
import Courier.Proofs.Mailbox.Custody
import Courier.Proofs.Session.Packing
import Courier.Proofs.Session.Fullness
import Courier.Proofs.Session.Retransmission
import Courier.Proofs.Vault
import Courier.Proofs.Session.Release
import Courier.Proofs.Extent
import Courier.Proofs.Codec
import Courier.Proofs.Session.Gathering
import Courier.Proofs.Session.Reordering
import Courier.Proofs.Connection.Accounting
import Courier.Proofs.Connection.Recognition
import Courier.Proofs.Depot.Traffic
import Courier.Proofs.Command.Simulation
import Courier.Proofs.Connection.Budget
import Courier.Proofs.Mailbox.Fitting
import Courier.Proofs.Session.Truncation
import Courier.Proofs.Connection.Flipping
import Courier.Proofs.Separation
import Courier.Proofs.Curve.Agreement
import Courier.Proofs.Password.Calibration
