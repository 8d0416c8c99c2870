import Pseudonym.Naming.Seeding
import Pseudonym.Renaming.Members
import Pseudonym.Renaming.Metadata

/-!
# The renaming pass

The pass gives new names to the types of a program, then to their members, and last to metadata.
It starts from the registry of the model, so it never meets an open scope or a number that is no
type's, and never makes a misuse.
-/

namespace Pseudonym

/-- What a pass is to do. -/
structure PassOptions where
  naming : NamingOptions
  /-- Words for the names of members and metadata. -/
  memberWords : Option Name.WordList
  /-- Whether metadata counts: it tells lambda classes apart, and its names are renamed. -/
  adaptMetadata : Bool
  /-- Whether everything in a descriptor tells members apart. -/
  overload : Bool

namespace PassOptions

instance : Inhabited PassOptions := ⟨⟨.plain, none, true, false⟩⟩

/-- The candidates for the names of members.  They always have mixed case. -/
def memberSequence (o : PassOptions) : Name.Sequence :=
  .withWords o.memberWords true

end PassOptions

/-- Renames a program. -/
def Model.rename (m : Model) (o : PassOptions) : Except Misuse Renaming := do
  let s : Renaming := ⟨.ofModel m o.naming o.memberSequence, m⟩
  let s ← s.renameTypes o.adaptMetadata
  let s ← s.renameMembers o.overload
  if o.adaptMetadata then s.renameMetadata else return s

end Pseudonym
