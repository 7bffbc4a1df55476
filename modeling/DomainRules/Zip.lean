import DomainRules.Archive
import DomainRules.Text.Utf8
import DomainRules.Zip.Member

namespace DomainRules

/-- The name of the list that an entry holds: its path is that of the directory followed by a name
without a slash. -/
def Zip.Entry.listName? (directory : String) (entry : Entry) : Option String :=
  let path := Text.ofUtf8 entry.name
  if entry.isDirectory || !directory.toList.isPrefixOf path then none
  else
    let name := path.drop directory.toList.length
    if name.isEmpty || name.contains '/' then none else some (String.ofList name)

def Zip.content (bytes : Bytes) (name : String) (entry : Entry) : Content :=
  match data? bytes entry with
  | some data => .text (String.ofList (Text.ofUtf8 data))
  | none => .failed (.unreadableList name)

/-- The archive of lists that some bytes are. Only the directory is checked; a list with damaged
data fails when it is read. -/
def Archive.ofZip (directory : String) (bytes : Bytes) : Except Failure Archive :=
  match Zip.entries? bytes with
  | none => .error (.invalidArchive bytes.length)
  | some entries => .ok (.ofEntries (entries.filterMap fun entry =>
      (entry.listName? directory).map fun name => (name, Zip.content bytes name entry)))

end DomainRules
