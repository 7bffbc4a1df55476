import DomainRules.Failure
import DomainRules.Text.Units

namespace DomainRules

/-- What reading a member gives. -/
inductive Content where
  | text (text : String)
  | failed (failure : Failure)
  deriving DecidableEq, Repr

structure Archive where
  members : List (String × Content)
  deriving DecidableEq, Repr

namespace Archive

/-- The members with one more; a member of the same name is replaced. -/
def insertMember (name : String) (content : Content) :
    List (String × Content) → List (String × Content)
  | [] => [(name, content)]
  | (other, held) :: members =>
    if name = other then (name, content) :: members
    else if Text.unitOrder name other then (name, content) :: (other, held) :: members
    else (other, held) :: insertMember name content members

/-- The archive of some entries. Of entries with one name the last counts. -/
def ofEntries (entries : List (String × Content)) : Archive where
  members := entries.foldl (fun members (name, content) => insertMember name content members) []

def names (archive : Archive) : List String := archive.members.map (·.1)

def content? (archive : Archive) (name : String) : Option Content := archive.members.lookup name

def read (archive : Archive) (name : String) : Except Failure String :=
  match archive.content? name with
  | some (.text text) => .ok text
  | some (.failed failure) => .error failure
  | none => .error (.listNotFound name)

end Archive

end DomainRules
