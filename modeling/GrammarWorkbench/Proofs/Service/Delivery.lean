import GrammarWorkbench.Json.Encoding
import GrammarWorkbench.Proofs.Json.Whole
import GrammarWorkbench.Proofs.Service.Classification
import Mathlib.Data.List.TakeWhile

/-!
# What arrives of a response

An endpoint has a response that classifies the request.  It arrives if its body can be written,
and otherwise a report of the failure does.  Nothing keeps a half of a pair out of a grammar, nor
out of a line that is to blame, and UTF-8 writes no body with such a half.
-/

namespace GrammarWorkbench

open Json (WholeText)
open Text (isWhole)

/-! ## Writing in UTF-8 -/

namespace Writer

end Writer

namespace Service

variable {marker : Symbol} {request : Request} {text : String} {endpoint : Endpoint}

end Service

end GrammarWorkbench
