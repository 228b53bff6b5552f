import CilListing.Main
import CilListing.Proofs.BodyListing
import CilListing.Proofs.BranchTargets
import CilListing.Proofs.CursorRuns
import CilListing.Proofs.Encoding
import CilListing.Proofs.LosslessListing
import CilListing.Proofs.ReportListing
import CilListing.Proofs.SymbolFileRoundTrip
import CilListing.Proofs.UnknownPolicies
import CilListing.Proofs.TokenDispatch
import CilListing.Proofs.RunLookups
import CilListing.Proofs.ListingLines
import CilListing.Proofs.TruncatedCode
import CilListing.Proofs.Relocation
import CilListing.Proofs.CutBodies
import CilListing.Proofs.FloatRounding
import CilListing.Proofs.Stepping
import CilListing.Proofs.ShortestDecimal
import CilListing.Proofs.FloatConstants
import CilListing.Proofs.TokenSpelling
import CilListing.Proofs.QuotedLiterals
import CilListing.Proofs.DebugLines
import CilListing.Proofs.LastEntries
import CilListing.Proofs.OperandExtent
