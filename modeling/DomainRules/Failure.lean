import DomainRules.Number.Decimal
import DomainRules.Regex.Flaw

namespace DomainRules

/-- The class of a failure, which decides the answer to a client and the label of a metric. -/
inductive FailureKind where
  | plain
  | typing
  | range
  | grammar
  | detailed
  | transport
  | format
  | notFound
  | cyclicInclude
  deriving DecidableEq, Repr

def FailureKind.label : FailureKind → String
  | .plain => "Error"
  | .typing => "TypeError"
  | .range => "RangeError"
  | .grammar => "SyntaxError"
  | .detailed => "DetailedError"
  | .transport => "TransportError"
  | .format => "FormatError"
  | .notFound => "NotFoundError"
  | .cyclicInclude => "CyclicIncludeError"

/-- The two requests that the server sends to the place where the archive is published. -/
inductive Errand where
  | probe
  | download
  deriving DecidableEq, Repr

def Errand.label : Errand → String
  | .probe => "probe"
  | .download => "download"

inductive DiskFault where
  | absent
  | isDirectory
  /-- Something on the way is not a directory. -/
  | notDirectory
  /-- Something that is no directory is where one has to be made. -/
  | exists
  deriving DecidableEq, Repr

def DiskFault.code : DiskFault → String
  | .absent => "ENOENT"
  | .isDirectory => "EISDIR"
  | .notDirectory => "ENOTDIR"
  | .exists => "EEXIST"

inductive Failure where
  | invalidArchive (size : Nat)
  | unreadableList (member : String)
  /-- A list names another one that the archive does not hold. -/
  | includedListNotFound (member : String) (origin : Option String)
  | emptyFingerprint
  | invalidSnapshot
  | listNotFound (member : String)
  /-- A list includes itself, directly or through others. -/
  | cyclicInclude (chain : List String)
  /-- The publisher of the archive could not be reached. -/
  | unreachable (errand : Errand) (url reason : String)
  /-- The publisher of the archive answered with another status than success. -/
  | refused (errand : Errand) (url : String) (status : Number)
  | disk (fault : DiskFault)
  /-- A file cannot take the place of a directory. -/
  | overwritesDirectory (source target : String)
  /-- A record has more bytes than can be written at once. -/
  | excessiveRecord
  /-- The rendered results cannot be held under the given bound. -/
  | invalidBound
  /-- The bound on the rendered results is not exact as a number. -/
  | inexactBound (bound : Number)
  /-- The bound on the rendered results is more than can be held. -/
  | excessiveBound
  /-- The rendered results cannot be held with the given lifetime. -/
  | invalidLifetime
  /-- The rendered results would be held without a bound and for ever. -/
  | unlimited
  /-- A record has no text. -/
  | textless
  /-- Something else than texts was given as a pattern of paths. -/
  | invalidPath
  | invalidPattern (spelled : String) (flaw : Regex.Flaw)
  /-- A setting that has to be a natural number is not. -/
  | notNatural (setting text : String)
  /-- A failure with the wording of whoever reported it. -/
  | reported (kind : FailureKind) (message : String)
  /-- Something was given as a reason that is no error. -/
  | thrown (text : String)
  deriving DecidableEq, Repr

namespace Failure

/-- The class of a failure; a reason that is no error has none. -/
def kind? : Failure → Option FailureKind
  | .invalidArchive _ => some .format
  | .unreadableList _ => some .format
  | .includedListNotFound _ _ => some .format
  | .emptyFingerprint => some .format
  | .invalidSnapshot => some .format
  | .listNotFound _ => some .notFound
  | .cyclicInclude _ => some .cyclicInclude
  | .unreachable _ _ _ => some .transport
  | .refused _ _ _ => some .transport
  | .disk _ => some .plain
  | .overwritesDirectory _ _ => some .plain
  | .excessiveRecord => some .plain
  | .invalidBound => some .typing
  | .inexactBound _ => some .plain
  | .excessiveBound => some .range
  | .invalidLifetime => some .typing
  | .unlimited => some .typing
  | .textless => some .typing
  | .invalidPath => some .typing
  | .invalidPattern _ _ => some .grammar
  | .notNatural _ _ => some .plain
  | .reported kind _ => some kind
  | .thrown _ => none

/-- The label of a failure in the metrics. -/
def label (failure : Failure) : String :=
  match failure.kind? with
  | some kind => kind.label
  | none => "Unknown"

def message : Failure → String
  | .invalidArchive _ => "Invalid archive"
  | .unreadableList member => "Unreadable list: " ++ member
  | .includedListNotFound member _ => "Included list not found: " ++ member
  | .emptyFingerprint => "Archive fingerprint must not be empty"
  | .invalidSnapshot => "Invalid archive snapshot file"
  | .listNotFound member => "List not found: " ++ member
  | .cyclicInclude chain => "Cyclic include: " ++ String.intercalate " -> " chain
  | .unreachable errand _ _ => "Archive " ++ errand.label ++ " failed"
  | .refused errand _ status =>
    "Archive " ++ errand.label ++ " failed with status " ++ String.ofList status.text
  | .disk fault => fault.code
  | .overwritesDirectory source target =>
    "Cannot overwrite directory '" ++ target ++ "' with non-directory '" ++ source ++ "'."
  | .excessiveRecord => "Packed buffer would be larger than maximum buffer size"
  | .invalidBound => "max option must be a nonnegative integer"
  | .inexactBound bound => "invalid max value: " ++ String.ofList bound.text
  | .excessiveBound => "Invalid array length"
  | .invalidLifetime => "ttl must be a positive integer if specified"
  | .unlimited => "At least one of max, maxSize, or ttl is required"
  | .textless => "Cannot convert object to primitive value"
  | .invalidPath => "path must be a string, array of strings, or regular expression"
  | .invalidPattern spelled flaw =>
    "Invalid regular expression: /" ++ spelled ++ "/i: " ++ flaw.message
  | .notNatural setting text => setting ++ " must be a non-negative integer, got: " ++ text
  | .reported _ message => message
  | .thrown text => text

end Failure

end DomainRules
