import BlockCanvas.Canvas.Audit
import BlockCanvas.Document.ToXml
import BlockCanvas.Main
import BlockCanvas.Session
import BlockCanvas.Proofs.Audience
import BlockCanvas.Proofs.Sealing
import BlockCanvas.Proofs.Tracking
import BlockCanvas.Proofs.Population
import BlockCanvas.Proofs.Bundles
import BlockCanvas.Proofs.Conservation
import BlockCanvas.Proofs.Edits
import BlockCanvas.Proofs.Filling
import BlockCanvas.Proofs.FreeBlocks
import BlockCanvas.Proofs.Gestures
import BlockCanvas.Proofs.Indentation
import BlockCanvas.Proofs.JsonCodec
import BlockCanvas.Proofs.Ledger
import BlockCanvas.Proofs.Loading
import BlockCanvas.Proofs.ProgramText
import BlockCanvas.Proofs.ProgramRecast
import BlockCanvas.Proofs.Utf8
import BlockCanvas.Proofs.Workspaces
import BlockCanvas.Proofs.XmlCodec
import BlockCanvas.Proofs.Lineage
import BlockCanvas.Proofs.Attachment
import BlockCanvas.Proofs.Drops
import BlockCanvas.Proofs.Formula
import BlockCanvas.Proofs.Numerals
import BlockCanvas.Proofs.Quotation
import BlockCanvas.Proofs.Likeness
import BlockCanvas.Proofs.Connectors
import BlockCanvas.Proofs.Identifiers
import BlockCanvas.Proofs.Coverage
import BlockCanvas.Proofs.CanonicalOutput
import BlockCanvas.Proofs.Resaving
import BlockCanvas.Proofs.Separation
import BlockCanvas.Proofs.Drawing
import BlockCanvas.Proofs.Sites
import BlockCanvas.Proofs.HitTesting
import BlockCanvas.Proofs.Lifting
import BlockCanvas.Proofs.Containment
import BlockCanvas.Proofs.Running
