import BlockCheck.Proofs.Records
import BlockCheck.Proofs.Schema.Conforms

/-!
# Where findings come from

A finding concerns the value as a whole, one of its keys, or something inside it. There is one way for each
of these, so what holds of all findings follows from a case for each way and not from the walk.
-/

namespace BlockCheck

/-- What can be wrong with a value as a whole. -/
inductive Problem.Misfit : Problem → Prop
  | mismatch {expected : String} {got : Kind} : Misfit (.mismatch expected got)
  | noUnionMember {names : List String} : Misfit (.noUnionMember names)
  | notText {tag : String} {got : Kind} : Misfit (.notText tag got)
  | notObject {tag : String} {got : Kind} : Misfit (.notObject tag got)
  | listingWithoutProducts : Misfit .listingWithoutProducts
  | detailsWithoutProduct : Misfit .detailsWithoutProduct

namespace Schema

/-- How something comes to be found in a value that is there. -/
inductive Finds (mode : Mode) : Schema → Json → Finding → Prop
  | whole {s : Schema} {value : Json} {problem : Problem} : problem.Misfit →
      Finds mode s value (.here problem)
  | unidentified {tag : String} {optional : Bool} {value : Json} :
      ((∃ members, value = .object members) ∨ ∃ items, value = .array items) →
      Finds mode (.special tag optional) value ⟨[.key "productID"], .productWithoutIdentity⟩
  | item {element : Schema} {optional : Bool} {items : List Json} {n : Nat} {value : Json} {f : Finding} :
      items[n]? = some value → Finds mode element value f →
      Finds mode (.array (some element) optional) (.array items) (f.under (.index n))
  | lacking {properties : List (String × Schema)} {ignored : List String} {optional : Bool}
      {members : List (String × Json)} {p : String × Schema} : p ∈ properties →
      p.1 ∉ Record.keys members → p.2.optional = false →
      Finds mode (.object properties ignored optional) (.object members) ⟨[.key p.1], .missing⟩
  | inside {properties : List (String × Schema)} {ignored : List String} {optional : Bool}
      {members : List (String × Json)} {p : String × Schema} {value : Json} {f : Finding} : p ∈ properties →
      members.lookup p.1 = some value → Finds mode p.2 value f →
      Finds mode (.object properties ignored optional) (.object members) (f.under (.key p.1))
  | unknown {properties : List (String × Schema)} {ignored : List String} {optional : Bool}
      {members : List (String × Json)} {key : String} : mode = .strict → key ∈ Record.keys members →
      ¬Knows properties ignored key →
      Finds mode (.object properties ignored optional) (.object members) ⟨[.key key], .unknownProperty⟩

variable {mode : Mode} {s : Schema} {value : Json} {f : Finding}

/-! ## One way for each finding -/

theorem finds_of_mem_here {problem : Problem} (h : problem.Misfit) (hf : f ∈ [Finding.here problem]) :
    Finds mode s value f := by
  obtain rfl := List.mem_singleton.1 hf
  exact .whole h

theorem finds_of_mem_primitiveFindings {type : Primitive} (hf : f ∈ primitiveFindings type value) :
    Finds mode s value f := by
  unfold primitiveFindings at hf
  split at hf
  case h_6 => exact finds_of_mem_here .mismatch hf
  all_goals cases hf

theorem finds_of_mem_recordFindings {tag : String} {optional : Bool}
    (hvalue : (∃ members, value = .object members) ∨ ∃ items, value = .array items)
    (hf : f ∈ recordFindings tag value) : Finds mode (.special tag optional) value f := by
  unfold recordFindings at hf
  split at hf
  · split at hf
    · cases hf
    · obtain rfl := List.mem_singleton.1 hf
      exact .unidentified hvalue
  split at hf
  · split at hf
    · cases hf
    · exact finds_of_mem_here .listingWithoutProducts hf
  · split at hf
    · cases hf
    · exact finds_of_mem_here .detailsWithoutProduct hf

theorem finds_of_mem_specialFindings {tag : String} {optional : Bool} (hf : f ∈ specialFindings tag value) :
    Finds mode (.special tag optional) value f := by
  unfold specialFindings at hf
  split at hf
  · split at hf
    · cases hf
    · exact finds_of_mem_here .notText hf
  split at hf
  · split at hf
    · exact finds_of_mem_recordFindings (.inl ⟨_, rfl⟩) hf
    · exact finds_of_mem_recordFindings (.inr ⟨_, rfl⟩) hf
    · exact finds_of_mem_here .notObject hf
  · cases hf

/-- Only a required value is missed, and nothing else is found in what is not there. -/
theorem mem_check_iff {value : Option Json} : f ∈ s.check mode value ↔
    (value = none ∧ s.optional = false ∧ f = .here .missing) ∨
      ∃ held, value = some held ∧ f ∈ s.findings mode held := by
  cases value with
  | none =>
    rw [check, absentFindings]
    cases s.optional <;> simp
  | some held => simp [check]

theorem finds_of_mem_findings (mode : Mode) (s : Schema) :
    ∀ value, ∀ f ∈ s.findings mode value, Finds mode s value f := by
  induction s using Schema.induction with
  | primitive type _ => exact fun value f => finds_of_mem_primitiveFindings
  | array element _ ih =>
    intro value f hf
    unfold findings at hf
    split at hf
    · cases element with
      | none => cases hf
      | some element =>
        rw [elementFindings_some] at hf
        obtain ⟨item, hitem, hf⟩ := List.mem_flatMap.1 hf
        obtain ⟨inner, hinner, rfl⟩ := List.mem_map.1 hf
        exact .item (List.mem_zipIdx_iff_getElem?.1 hitem) (ih element rfl item.1 inner hinner)
    · split at hf
      · cases hf
      · exact finds_of_mem_here .mismatch hf
    · exact finds_of_mem_here .mismatch hf
  | object properties ignored _ ih =>
    intro value f hf
    unfold findings at hf
    split at hf
    · rw [propertyFindings_eq] at hf
      rcases List.mem_append.1 hf with hf | hf
      · obtain ⟨p, hp, hf⟩ := List.mem_flatMap.1 hf
        obtain ⟨inner, hinner, rfl⟩ := List.mem_map.1 hf
        obtain ⟨hlacks, hoptional, rfl⟩ | ⟨held, hheld, hinner⟩ := mem_check_iff.1 hinner
        · exact .lacking hp (Record.lookup_eq_none_iff.1 hlacks) hoptional
        · exact .inside hp hheld (ih p hp held inner hinner)
      · obtain ⟨hmode, key, hkey, hknows, rfl⟩ := mem_unknownFindings_iff.1 hf
        exact .unknown hmode hkey hknows
    · exact finds_of_mem_here .mismatch hf
  | union members _ _ =>
    intro value f hf
    -- What the members of a union find is not passed on.
    rw [findings] at hf
    split at hf
    · cases hf
    · exact finds_of_mem_here .noUnionMember hf
  | special tag _ => exact fun value f => finds_of_mem_specialFindings
  | any _ => simp [findings]

end Schema

end BlockCheck
