import AvroIdl.Main
import AvroIdl.Proofs.Command.Delivery
import AvroIdl.Proofs.Command.Status
import AvroIdl.Proofs.Conversion.BlankedFaults
import AvroIdl.Proofs.Conversion.Labels
import AvroIdl.Proofs.Conversion.Lossless
import AvroIdl.Proofs.Declaration.Calls
import AvroIdl.Proofs.Declaration.History
import AvroIdl.Proofs.Idl.Annotations
import AvroIdl.Proofs.Idl.Indentation
import AvroIdl.Proofs.Idl.Layout
import AvroIdl.Proofs.Idl.NumberDefaults
import AvroIdl.Proofs.Idl.Settled
import AvroIdl.Proofs.Load.Commented
import AvroIdl.Proofs.Load.DefinedNames
import AvroIdl.Proofs.Load.DottedNames
import AvroIdl.Proofs.Load.Hints
import AvroIdl.Proofs.Load.LiteralValues
import AvroIdl.Proofs.Load.RoundTrip
import AvroIdl.Proofs.Load.UnreadMembers
