import Pseudonym.Proofs.Renaming.Pass

/-!
# What the phases of a pass do to the registry

A pass names types, then members, then metadata.  In each of these phases it changes the registry by
asking it for names and for nothing else, so the registry at the end of a pass is reached from that
at the beginning by the steps that a registry can take (`rename_steps`).  What every step preserves
then holds of the registry after a whole pass.
-/

namespace Pseudonym

namespace Registry

variable {r r' : Registry} {scope : Scope}

lemma nameMembers_steps (overload : Bool) (r : Registry) (settled members : List Member) :
    Steps r (r.nameMembers overload settled members).2 := by
  induction members generalizing r settled with
  | nil => exact .refl
  | cons m rest ih =>
    unfold nameMembers
    split
    · exact ih r settled
    · exact (r.nameMember_steps _).trans (ih _ _)

lemma nameEach_steps {items named : List Named} (h : r.nameEach scope items = .ok (named, r')) :
    Steps r r' := by
  induction items generalizing r named with
  | nil =>
    obtain ⟨-, rfl⟩ := Prod.mk.inj (Except.ok.inj h)
    exact .refl
  | cons item rest ih =>
    obtain ⟨⟨name, r₁⟩, hnext, h⟩ := Renaming.exists_of_bind_eq_ok h
    obtain ⟨⟨named, r₂⟩, hrest, h⟩ := Renaming.exists_of_bind_eq_ok h
    obtain ⟨-, rfl⟩ := Prod.mk.inj (Except.ok.inj h)
    exact (nextInScope_steps hnext).trans (ih hrest)

lemma nameInScope_steps {items named : List Named}
    (h : r.nameInScope scope items = .ok (named, r')) : Steps r r' := by
  obtain ⟨r₁, henter, h⟩ := Renaming.exists_of_bind_eq_ok h
  obtain ⟨⟨named, r₂⟩, hnamed, h⟩ := Renaming.exists_of_bind_eq_ok h
  obtain ⟨r₃, hleave, h⟩ := Renaming.exists_of_bind_eq_ok h
  obtain ⟨-, rfl⟩ := Prod.mk.inj (Except.ok.inj h)
  exact ((enterScope_steps henter).trans (nameEach_steps hnamed)).trans (leaveScope_steps hleave)

lemma nameTypeAliases_steps {d d' : Declarations} (h : r.nameTypeAliases d = .ok (d', r')) :
    Steps r r' := by
  obtain ⟨⟨typeAliases, r₁⟩, hnamed, h⟩ := Renaming.exists_of_bind_eq_ok h
  obtain ⟨-, rfl⟩ := Prod.mk.inj (Except.ok.inj h)
  exact nameInScope_steps hnamed

lemma nameProperties_steps {d d' : Declarations} (h : r.nameProperties d = .ok (d', r')) :
    Steps r r' := by
  obtain ⟨⟨properties, r₁⟩, hnamed, h⟩ := Renaming.exists_of_bind_eq_ok h
  obtain ⟨-, rfl⟩ := Prod.mk.inj (Except.ok.inj h)
  exact nameInScope_steps hnamed

lemma nameDeclarations_steps {d d' : Declarations} (h : r.nameDeclarations d = .ok (d', r')) :
    Steps r r' := by
  obtain ⟨⟨d₁, r₁⟩, haliases, hproperties⟩ := Renaming.exists_of_bind_eq_ok h
  exact (nameTypeAliases_steps haliases).trans (nameProperties_steps hproperties)

end Registry

namespace Renaming

variable {s s' : Renaming} {overload : Bool} {id : TypeId}

lemma foldlM_steps {f : Renaming → TypeId → Except Misuse Renaming} {ids : List TypeId}
    (hstep : ∀ {s s' id}, f s id = .ok s' → Registry.Steps s.registry s'.registry)
    (h : ids.foldlM f s = .ok s') : Registry.Steps s.registry s'.registry :=
  foldlM_relates (R := fun s s' => Registry.Steps s.registry s'.registry) (fun _ => .refl) .trans
    hstep h

lemma renameMembersOf_steps (h : s.renameMembersOf overload id = .ok s') :
    Registry.Steps s.registry s'.registry := by
  obtain ⟨d, -, h⟩ := exists_of_bind_eq_ok h
  cases d with
  | library named =>
    obtain rfl := Except.ok.inj h
    exact .refl
  | program t =>
    obtain rfl := Except.ok.inj h
    exact s.registry.nameMembers_steps overload _ _

lemma renameDeclarationsOf_steps
    (h : s.renameDeclarationsOf Registry.nameDeclarations id = .ok s') :
    Registry.Steps s.registry s'.registry := by
  obtain ⟨d, -, h⟩ := exists_of_bind_eq_ok h
  cases d with
  | library named =>
    obtain rfl := Except.ok.inj h
    exact .refl
  | program t =>
    dsimp only at h
    cases hlists : t.declarations? with
    | none =>
      rw [hlists] at h
      obtain rfl := Except.ok.inj h
      exact .refl
    | some declarations =>
      rw [hlists] at h
      obtain ⟨⟨d', registry⟩, hnamed, h⟩ := exists_of_bind_eq_ok h
      obtain rfl := Except.ok.inj h
      exact Registry.nameDeclarations_steps hnamed

lemma renameMetadata_steps (h : s.renameMetadata = .ok s') :
    Registry.Steps s.registry s'.registry := by
  obtain ⟨s₁, hmodules, h⟩ := exists_of_bind_eq_ok h
  obtain ⟨⟨modules, registry⟩, hnamed, hs₁⟩ := exists_of_bind_eq_ok hmodules
  obtain rfl := Except.ok.inj hs₁
  exact (Registry.nameInScope_steps hnamed).trans (foldlM_steps renameDeclarationsOf_steps h)

end Renaming

/-- A whole pass takes the registry from what the model settles to the end by the steps that
registries take. -/
theorem Model.rename_steps {m : Model} {p : PassOptions} {s : Renaming} (h : m.rename p = .ok s) :
    Registry.Steps (Registry.ofModel m p.naming p.memberSequence) s.registry := by
  rw [m.rename_eq_bind] at h
  obtain ⟨s₂, hmembers, h⟩ := Renaming.exists_of_bind_eq_ok h
  have hsteps : Registry.Steps (Registry.ofModel m p.naming p.memberSequence) s₂.registry :=
    (m.withTypesNamed_extends p).registry.trans
      (Renaming.foldlM_steps Renaming.renameMembersOf_steps hmembers)
  split at h
  · exact hsteps.trans (Renaming.renameMetadata_steps h)
  · obtain rfl := Except.ok.inj h
    exact hsteps

end Pseudonym
