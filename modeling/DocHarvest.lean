import DocHarvest.Log.Sink
import DocHarvest.Proofs.Comment.CutInPlace
import DocHarvest.Proofs.Comment.Removal
import DocHarvest.Proofs.Comment.Reread
import DocHarvest.Proofs.Comment.Reading
import DocHarvest.Proofs.Datum.Sameness
import DocHarvest.Proofs.Document.Regularity
import DocHarvest.Proofs.Document.Restored
import DocHarvest.Proofs.Documenter.ClassMembers
import DocHarvest.Proofs.Documenter.Failure
import DocHarvest.Proofs.Documenter.Parts
import DocHarvest.Proofs.Documenter.Regularity
import DocHarvest.Proofs.Documenter.Restoring
import DocHarvest.Proofs.Documenter.SettingFacets
import DocHarvest.Proofs.Documenter.SettingInfluence
import DocHarvest.Proofs.Documenter.Wrapping
import DocHarvest.Proofs.Module.DefineCall
import DocHarvest.Proofs.Module.Detection
import DocHarvest.Proofs.Node.Naming
import DocHarvest.Proofs.Node.RoundTrip
import DocHarvest.Proofs.Outcome
import DocHarvest.Proofs.Text.FirstPlace
import DocHarvest.Proofs.Trace
import DocHarvest.Session
import DocHarvest.Proofs.Node.Grammar
import DocHarvest.Proofs.Documenter.Patterns
import DocHarvest.Proofs.Text.Replacement
import DocHarvest.Proofs.Comment.Dedent
import DocHarvest.Proofs.Comment.Depth
import DocHarvest.Proofs.Text.Words
import DocHarvest.Proofs.Comment.Wording
import DocHarvest.Proofs.Comment.Paragraphs
import DocHarvest.Proofs.Comment.TrailingBlanks
import DocHarvest.Proofs.Documenter.Rendering
import DocHarvest.Proofs.Comment.Escaping
import DocHarvest.Proofs.Module.Pairing
import DocHarvest.Proofs.Log.Setup
import DocHarvest.Proofs.Node.Chain
import DocHarvest.Proofs.Settings.Fallback
