import Pseudonym.Proofs.Naming.Loops
import Pseudonym.Proofs.Renaming.Phases

/-!
# A pass always ends

There are two ways in which a pass could fail to give a result.  It could be refused, because it
asks for a type that is not there, gives a new name to a library type, or opens and closes scopes in
the wrong order.  Or it could go on forever: along the links of types, through the namespaces around
a namespace, or through a sequence of candidates.

`pass_always_ends` rules out both, for every model and all options, whatever the model records.
That nothing is refused is the outcome of the pass.  That nothing goes on forever cannot be told
from the outcome, since the definitions count down bounds.  So it is said of the loops without
bounds: each of them ends at every moment of a pass, and comes to what the definitions give.
-/

namespace Pseudonym

/-- A pass is never refused and leaves no scope open.  At every moment of it the way outwards from a
type without a name ends among the types that there are, every draw of a name ends, and every
namespace is decided by way of those around it.  A scope that is opened for a list while none is
open is closed after it.  Where the namespaces around a settled type follow it, going through them
ends as well. -/
theorem pass_always_ends (m : Model) (p : PassOptions) :
    let start := Registry.ofModel m p.naming p.memberSequence
    (∃ s, m.rename p = .ok s ∧ Registry.Steps start s.registry ∧
      s.registry.currentScope = none) ∧
    (∀ m', m.Grows m' → ∀ id t, m'.unnamed? id = some t → m'.WalkEnds p.adaptMetadata id t) ∧
    (∀ r, Registry.Steps start r → r.DrawsEnd ∧
      ∀ outer answer, r.Decides outer answer ↔ answer = r.newPrefix outer) ∧
    (∀ r scope items, Registry.Steps start r → r.currentScope = none →
      ∃ named r', r.nameInScope scope items = .ok (named, r') ∧ r'.currentScope = none) ∧
    (p.naming.followsOutwards = true → ∀ name newName,
      NamingOptions.Climbs (Name.namespacePrefix name) (Name.namespacePrefix newName)
        (p.naming.settledPrefixes name newName)) := by
  intro start
  refine ⟨?_, ?_, ?_, ?_, ?_⟩
  · obtain ⟨s, hs, -, hscope⟩ := m.rename_keepsTypes p
    exact ⟨s, hs, Model.rename_steps hs, hscope⟩
  · intro m' _ id t ht
    exact Model.walkEnds p.adaptMetadata ht
  · intro r hr
    have hroot : r.newPrefix? "" ≠ none := Registry.newPrefix?_root hr
    exact ⟨r.drawsEnd, fun outer answer => Registry.decides_iff hroot⟩
  · intro r scope items _ hclosed
    exact Registry.nameInScope_closed scope items hclosed
  · intro houtwards name newName
    exact NamingOptions.climbs_settledPrefixes houtwards name newName

/-- Two types that lie in each other are named one below the other. -/
example :
    let m : Model := ⟨#[.program ((ProgramType.named "Inner").nestedIn "Outer"),
      .program ((ProgramType.named "Outer").nestedIn "Inner")], []⟩
    (m.rename default).toOption.map (fun s => s.model.types.toList.map KnownType.currentName) =
      some ["a$a", "a"] := by
  decide +kernel

end Pseudonym
