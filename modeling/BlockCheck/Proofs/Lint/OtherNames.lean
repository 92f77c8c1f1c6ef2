import BlockCheck.Proofs.Lint.UnusedComponents
import BlockCheck.Proofs.Lint.UnusedProperties

/-!
# Components under another name

A reference may leave out the extension of a component, or the directory that components lie in. A run
over documents finds the file all the same and checks the reference against it. A run over components
counts those references only that give the identifier of the file in full, so a component that every
document refers to by another name can be flagged as unused.
-/

namespace BlockCheck.Lint

variable {disk : Disk} {cwd : String} {config : Config} {r : Scan.Reference} {c : ComponentResult}

/-- A reference to a component, in a document of the project that can be read. -/
def Refers (disk : Disk) (cwd : String) (config : Config) (r : Scan.Reference) : Prop :=
  r.kind = .localComponent ∧ ∃ value, IsDocument disk cwd config value ∧
    r ∈ Scan.references config.naming config.settings.discriminator value

def ResolvesTo (disk : Disk) (cwd : String) (config : Config) (r : Scan.Reference)
    (c : ComponentResult) : Prop :=
  (surroundings (disk.toFiles cwd) config).locate r.identifier =
    some (Path.normalize (Path.append config.root c.file))

theorem Refers.mentioned (h : Refers disk cwd config r) : Mentioned disk cwd config r.identifier := by
  obtain ⟨-, value, hdocument, hr⟩ := h
  exact ⟨value, hdocument, Scan.mentions_of_mem_references hr⟩

theorem unused_eq_false_iff (hc : c ∈ (whole disk cwd config).components) :
    c.unused = false ↔ Mentioned disk cwd config c.identifier ∨ IsImported disk config c.file ∨
      config.settings.mayBeUnused c.file = false := by
  rw [← Bool.not_eq_true, unused_iff hc, ← Bool.not_eq_true]
  tauto

/-- A component is kept from being flagged as unused by a reference that gives its identifier. A
reference by another name that leads to its file keeps it from that only if it is mentioned by its
identifier as well, or is imported, or is never unused. -/
theorem unused_eq_false_of_refers (disk : Disk) (cwd : String) (config : Config) :
    ∃ lint, components disk cwd config none = some lint ∧ ∀ c ∈ lint.components,
      (∀ r, Refers disk cwd config r → r.identifier = c.identifier → c.unused = false) ∧
      ((∀ r, Refers disk cwd config r → ResolvesTo disk cwd config r c → c.unused = false) ↔
        ((∃ r, Refers disk cwd config r ∧ ResolvesTo disk cwd config r c) →
          Mentioned disk cwd config c.identifier ∨ IsImported disk config c.file ∨
            config.settings.mayBeUnused c.file = false)) := by
  refine ⟨whole disk cwd config, components_none disk cwd config, fun c hc => ⟨?_, ?_⟩⟩
  · intro r hr heq
    exact (unused_eq_false_iff hc).2 (Or.inl (heq ▸ hr.mentioned))
  · rw [← unused_eq_false_iff hc]
    constructor
    · rintro h ⟨r, hr, hresolves⟩
      exact h r hr hresolves
    · intro h r hr hresolves
      exact h ⟨r, hr, hresolves⟩

/-! ## A header without its directory and extension -/

def shortNameDisk : Disk where
  files := [("/p/.deco/blocks/home.json", "\x7b\"__resolveType\":\"site/Header\"\x7d".toUTF8.toList),
    ("/p/sections/Header.tsx", [])]
  directories := ["/", "/p", "/p/.deco", "/p/.deco/blocks", "/p/sections"]

def shortNameConfig : Config := ⟨"/p", "/p/.deco/blocks", {}⟩

theorem isDocument_shortName :
    IsDocument shortNameDisk "/" shortNameConfig
      (.object [("__resolveType", .string "site/Header")]) := by
  refine ⟨"/p/.deco/blocks/home.json", ?_, "\x7b\"__resolveType\":\"site/Header\"\x7d", ?_, ?_⟩
  · decide +kernel
  · decide +kernel
  · cbv

/-- The reference to `site/Header` is checked against `sections/Header.tsx`, which no document is said
to use. -/
theorem unused_though_referred_to :
    ¬∀ lint ∈ components shortNameDisk "/" shortNameConfig none, ∀ c ∈ lint.components,
      ∀ r, Refers shortNameDisk "/" shortNameConfig r →
        ResolvesTo shortNameDisk "/" shortNameConfig r c → c.unused = false := by
  intro h
  have hrun : (whole shortNameDisk "/" shortNameConfig).components.map (fun c => (c.file, c.unused)) =
      [("sections/Header.tsx", true)] := by decide +kernel
  obtain ⟨c, hc, heq⟩ : ∃ c ∈ (whole shortNameDisk "/" shortNameConfig).components,
      (c.file, c.unused) = ("sections/Header.tsx", true) := by
    rw [← List.mem_map, hrun]
    exact List.mem_singleton.2 rfl
  obtain ⟨hfile, hunused⟩ := Prod.mk.inj heq
  have hreferences : Scan.references shortNameConfig.naming discriminator
      (.object [("__resolveType", .string "site/Header")]) =
        [⟨"site/Header", .localComponent, [], []⟩] := rfl
  have hrefers : Refers shortNameDisk "/" shortNameConfig ⟨"site/Header", .localComponent, [], []⟩ := by
    refine ⟨rfl, _, isDocument_shortName, ?_⟩
    exact hreferences ▸ List.mem_singleton.2 rfl
  have hresolves : ResolvesTo shortNameDisk "/" shortNameConfig
      ⟨"site/Header", .localComponent, [], []⟩ c := by
    unfold ResolvesTo
    rw [hfile]
    decide +kernel
  rw [h _ (components_none _ _ _) c hc _ hrefers hresolves] at hunused
  cases hunused

end BlockCheck.Lint
