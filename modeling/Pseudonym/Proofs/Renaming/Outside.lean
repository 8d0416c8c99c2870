import Pseudonym.Proofs.NestedNames
import Pseudonym.Proofs.Renaming.Pass

/-!
# Types that a pass names in no other

Most types that lie in no other have no link.  On a circle of links there is one type as well that
is not named inside the next one.  `IsNamedOutside` is said of both.

What a pass does with such a type is told by one answer of the registry.  The type ends up with the
new prefix of its namespace, as the registry answers it once all types have been named, and a
candidate (`rename_outside`).  So what is known about the answers of a registry is known about the
names of these types.
-/

namespace Pseudonym
namespace Model

variable {m : Model} {p : PassOptions} {i : TypeId} {t : ProgramType} {name : String}

/-- Whether a type has no name before a pass, and is not named inside another type in it: it has no
link, or it is the one on a circle that is not contained in the next. -/
def IsNamedOutside (m : Model) (p : PassOptions) (i : TypeId) (t : ProgramType) : Prop :=
  m.unnamed? i = some t ∧ (m.link p.adaptMetadata t = none ∨
    ¬ (m.withTypesNamed p).IsContained m p.adaptMetadata i)

/-- When all types have been named, the registry has gone on from what the model settles. -/
lemma withTypesNamed_steps (m : Model) (p : PassOptions) :
    Registry.Steps (Registry.ofModel m p.naming p.memberSequence)
      (m.withTypesNamed p).registry :=
  (m.withTypesNamed_extends p).registry

@[simp] lemma options_withTypesNamed (m : Model) (p : PassOptions) :
    (m.withTypesNamed p).registry.options = p.naming :=
  (m.withTypesNamed_steps p).options_eq

/-- A type that is named in no other is called by the new prefix of its namespace and a
candidate. -/
lemma IsNamedOutside.isOutermost (h : m.IsNamedOutside p i t)
    (hbears : (m.withTypesNamed p).model.Bears i name) :
    (m.withTypesNamed p).registry.IsTopLevel t.name name := by
  obtain ⟨ht, houtside⟩ := h
  have hcontained := (Renaming.Contained.start (Renaming.start m p.naming p.memberSequence)
    p.adaptMetadata).afterAll m.programIds
  obtain ⟨t', name', ht', hbears', htop⟩ := hcontained.isOutermost ht hbears houtside
  have hsame : t = t' := Option.some.inj (ht.symm.trans ht')
  have hname : name = name' := hbears.eq hbears'
  subst hsame hname
  exact htop

/-- A pass is never refused, and types that it names in no other end up with the new prefix of their
namespace and a candidate. -/
theorem rename_outside (m : Model) (p : PassOptions) :
    ∃ s, m.rename p = .ok s ∧ ∀ i t d, m.IsNamedOutside p i t → s.model.types[i]? = some d →
      ∃ k candidate, p.naming.typeSequence.nameAt? k = some candidate ∧
        d.currentName =
          ((m.withTypesNamed p).registry.newPrefix (Name.namespacePrefix t.name)).1 ++
            candidate := by
  obtain ⟨s, hs, hnames⟩ := m.rename_bears p
  refine ⟨s, hs, ?_⟩
  intro i t d houtside hd
  obtain ⟨outer, k, candidate, hanswer, hentry, hname⟩ := houtside.isOutermost (hnames i d hd)
  rw [options_withTypesNamed] at hentry
  refine ⟨k, candidate, hentry, ?_⟩
  rw [hname, hanswer]

end Model
end Pseudonym
