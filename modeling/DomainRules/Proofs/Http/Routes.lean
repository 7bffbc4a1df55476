import DomainRules.Http.Route
import DomainRules.Proofs.Text.Lines

namespace DomainRules.Http

open Text

section Parameters

variable {name piece : List Char} (segments : List Segment) (pieces : List (List Char))

end Parameters

section Resolve

variable {post : Signpost} {posts : List Signpost} {path : List Char}

end Resolve

section Segments

variable {pieces : List (List Char)} (hpieces : ∀ piece ∈ pieces, '/' ∉ piece)

include hpieces

end Segments

section Lists

variable {front behind : List Signpost} {raw segment : List Char}

end Lists

end DomainRules.Http
