import DomainRules.Proofs.Site.Lists
import DomainRules.Proofs.Text.Plain

namespace DomainRules

open Http Text

namespace Site

variable {site : Site} {moment : Moment} {incoming : Incoming} {archive : Archive} {name : String}

end Site

end DomainRules
