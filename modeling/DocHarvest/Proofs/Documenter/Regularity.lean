import DocHarvest.Proofs.Comment.Reading
import DocHarvest.Proofs.Document.Regularity
import DocHarvest.Proofs.Documenter.Failure
import DocHarvest.Proofs.Documenter.Parts
import DocHarvest.Proofs.Module.Regularity

/-!
# The document of a regular script

The document of a regular script is regular: what it holds are names of nodes, texts, and sums of
names with the suffix of variadic parameters, which must not be infinite for this.
-/
namespace DocHarvest

namespace Documenter

open Traced

variable {s : DocSettings}

end Documenter

end DocHarvest
