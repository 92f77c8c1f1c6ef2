import BlockCheck.Proofs.Props.Heritage
import BlockCheck.Proofs.Props.Shapes

/-!
# Inherited members

What an interface has in the end: the names come from all interfaces that it inherits, and the schema
of a name that it declares itself is its own.
-/

namespace BlockCheck.Props

open Source

variable {outline : Outline} {i : Interface} {name : String}

/-! ## Own members -/

def lastShown? (name : String) (properties : List Property) : Option Property :=
  (properties.filter fun p => !p.ignored && p.name = name).getLast?

theorem lastShown?_cons (p : Property) (rest : List Property) :
    lastShown? name (p :: rest) =
      (lastShown? name rest).or (if p.ignored = false ∧ p.name = name then some p else none) := by
  unfold lastShown?
  rw [List.filter_cons]
  by_cases hp : p.ignored = false ∧ p.name = name
  · rw [if_pos (by simpa using hp), if_pos hp, List.getLast?_cons]
    cases (rest.filter fun p => !p.ignored && p.name = name).getLast? <;> rfl
  · rw [if_neg (by simpa using hp), if_neg hp, Option.or_none]

theorem lastShown?_eq_none_iff {properties : List Property} :
    lastShown? name properties = none ↔ name ∉ shownNames properties := by
  simp [lastShown?, shownNames]

section Own

variable {answer : Bool → TypeExpr → Option Schema} {members result : Members}
  {properties : List Property}

theorem lookup_addMembers_of_notMem (h : addMembers answer members properties = some result)
    (hname : name ∉ shownNames properties) :
    result.properties.lookup name = members.properties.lookup name := by
  induction properties generalizing members with
  | nil => exact Option.some.inj h ▸ rfl
  | cons p rest ih =>
    rw [mem_shownNames_cons, not_or] at hname
    obtain ⟨hname, hrest⟩ := hname
    cases hp : p.ignored with
    | true =>
      rw [addMembers_cons_of_ignored hp] at h
      exact (ih h hrest).trans rfl
    | false =>
      rw [addMembers_cons_of_shown hp] at h
      obtain ⟨s, -, h⟩ := Option.bind_eq_some_iff.1 h
      rw [ih h hrest, Members.addProperty, Record.lookup_insert, if_neg fun heq => hname ⟨hp, heq⟩]

theorem exists_addMembers_of_cons {p : Property} {rest : List Property}
    (h : addMembers answer members (p :: rest) = some result) :
    ∃ members', addMembers answer members' rest = some result := by
  cases hp : p.ignored with
  | true => exact ⟨_, (addMembers_cons_of_ignored hp rest).symm.trans h⟩
  | false =>
    rw [addMembers_cons_of_shown hp] at h
    obtain ⟨s, -, h⟩ := Option.bind_eq_some_iff.1 h
    exact ⟨_, h⟩

theorem exists_last_of_addMembers (h : addMembers answer members properties = some result)
    (hname : name ∈ shownNames properties) :
    ∃ p s, lastShown? name properties = some p ∧ memberSchema answer p = some s ∧
      result.properties.lookup name = some s := by
  induction properties generalizing members with
  | nil => cases hname
  | cons p rest ih =>
    rw [lastShown?_cons]
    by_cases hrest : name ∈ shownNames rest
    · obtain ⟨members', h'⟩ := exists_addMembers_of_cons h
      obtain ⟨q, s, hq, hs⟩ := ih h' hrest
      exact ⟨q, s, by rw [hq, Option.some_or], hs⟩
    · obtain ⟨hp, rfl⟩ := ((mem_shownNames_cons p rest).1 hname).resolve_right hrest
      rw [addMembers_cons_of_shown hp] at h
      obtain ⟨s, hs, h⟩ := Option.bind_eq_some_iff.1 h
      refine ⟨p, s, ?_, hs, ?_⟩
      · rw [lastShown?_eq_none_iff.2 hrest, Option.none_or, if_pos ⟨hp, rfl⟩]
      · rw [lookup_addMembers_of_notMem h hrest, Members.addProperty, Record.lookup_insert, if_pos rfl]

theorem optional_memberSchema {depth : Nat} {guard : Guard} {p : Property} {s : Schema}
    (h : memberSchema (resolve outline depth guard) p = some s) : s.optional = p.optional := by
  unfold memberSchema at h
  split at h
  · exact Option.some.inj h ▸ rfl
  · exact (shaped_resolve h).flag

end Own

/-! ## The members of an interface -/

theorem exists_last_of_interfaceMembers {depth : Nat} {guard : Guard} {members : Members}
    (hfree : interfaceKey i.name ∉ guard)
    (h : interfaceMembers outline (depth + 1) guard i = some members)
    (hname : name ∈ shownNames i.properties) :
    ∃ p s, lastShown? name i.properties = some p ∧
      memberSchema (resolve outline depth (interfaceKey i.name :: guard)) p = some s ∧
      members.properties.lookup name = some s := by
  have hstep := (interfaceMembers_of_notMem hfree outline depth).symm.trans h
  obtain ⟨inherited, -, hstep⟩ := Option.bind_eq_some_iff.1 hstep
  obtain ⟨own, hown, rfl⟩ := Option.map_eq_some_iff.1 hstep
  have hnodup := (shaped_addMembers (shaped_guarded outline depth _) shaped_empty hown).nodup
  obtain ⟨p, s, hp, hs, hlookup⟩ := exists_last_of_addMembers hown hname
  refine ⟨p, s, hp, hs, ?_⟩
  change (Record.insertAll own.properties inherited.properties).lookup name = some s
  rw [Record.lookup_insertAll hnodup, hlookup, Option.some_or]

/-- An interface gets its members from all that it inherits, in whatever way these extend each other:
the names that one of them declares are properties, those that are only ignored are ignored, and a name
that the interface declares itself has the schema and the flag of its own last declaration. -/
theorem interfaceMembers_of_inherits (hi : outline.interface? name = some i) :
    ∃ members : Members,
      (∀ depth ≥ enoughDepth outline [], interfaceMembers outline depth [] i = some members) ∧
      schemaOfInterface outline i = members.schema false ∧
      (∀ n, n ∈ Record.keys members.properties ↔
        ∃ j, Inherits outline i j ∧ n ∈ shownNames j.properties) ∧
      (∀ n, n ∈ members.ignored ↔ n ∉ Record.keys members.properties ∧
        ∃ j, Inherits outline i j ∧ n ∈ ignoredNames j.properties) ∧
      ∀ n ∈ shownNames i.properties, ∃ p s, lastShown? n i.properties = some p ∧ s.optional = p.optional ∧
        members.properties.lookup n = some s ∧ ∀ depth ≥ enoughDepth outline [],
          memberSchema (resolve outline depth [interfaceKey i.name]) p = some s := by
  obtain ⟨rfl, -⟩ := exists_of_interface? hi
  obtain ⟨members, hmembers⟩ := exists_interfaceMembers hi []
  have henough := hmembers _ le_rfl
  refine ⟨members, hmembers, ?_, fun n => ?_, fun n => ?_, fun n hn => ?_⟩
  · rw [schemaOfInterface, henough, Option.getD_some]
  · rw [mem_keys_iff_meets henough]
    exact exists_congr fun j => and_congr_left fun _ => meets_nil_iff hi
  · rw [mem_ignored_iff_meets henough]
    refine and_congr_right fun _ => exists_congr fun j => and_congr_left fun _ => meets_nil_iff hi
  · have hlast : ∀ depth ≥ enoughDepth outline [], ∃ p s, lastShown? n i.properties = some p ∧
        memberSchema (resolve outline depth [interfaceKey i.name]) p = some s ∧
        members.properties.lookup n = some s := fun depth hdepth =>
      exists_last_of_interfaceMembers List.not_mem_nil (hmembers _ (Nat.le_succ_of_le hdepth)) hn
    obtain ⟨p, s, hp, hs, hlookup⟩ := hlast _ le_rfl
    refine ⟨p, s, hp, optional_memberSchema hs, hlookup, fun depth hdepth => ?_⟩
    obtain ⟨q, s', hq, hs', hlookup'⟩ := hlast depth hdepth
    obtain rfl := Option.some.inj (hp.symm.trans hq)
    obtain rfl := Option.some.inj (hlookup.symm.trans hlookup')
    exact hs'

/-! ## Interfaces in a circle

A page has a base on two ways, and the base extends the page again.
-/

def pageInterface : Interface :=
  ⟨"Page", ["Titled", "Listed"], [⟨"id", true, some (.predefined "number"), false⟩]⟩

def titledInterface : Interface :=
  ⟨"Titled", ["Base"], [⟨"title", false, some (.predefined "string"), false⟩,
    ⟨"order", false, none, true⟩]⟩

def listedInterface : Interface :=
  ⟨"Listed", ["Base"], [⟨"order", false, some (.predefined "number"), false⟩]⟩

def baseInterface : Interface :=
  ⟨"Base", ["Page"], [⟨"id", false, some (.predefined "string"), false⟩,
    ⟨"internal", false, none, true⟩]⟩

def circle : Outline :=
  ⟨[], [⟨0, false, .interface pageInterface⟩, ⟨54, false, .interface titledInterface⟩,
    ⟨124, false, .interface listedInterface⟩, ⟨172, false, .interface baseInterface⟩]⟩

/-- The identifier is the page's own, not the one of the base, and the order is ignored on one way
only. -/
theorem interfaceMembers_circle :
    circle.interface? "Page" = some pageInterface ∧
    schemaOfInterface circle pageInterface =
      .object [("id", .primitive .number true), ("title", .primitive .string false),
        ("order", .primitive .number false)] ["internal"] false ∧
    ∃ members : Members,
      (∀ depth ≥ enoughDepth circle [],
        interfaceMembers circle depth [] pageInterface = some members) ∧
      schemaOfInterface circle pageInterface = members.schema false ∧
      (∀ n, n ∈ Record.keys members.properties ↔
        ∃ j, Inherits circle pageInterface j ∧ n ∈ shownNames j.properties) ∧
      (∀ n, n ∈ members.ignored ↔ n ∉ Record.keys members.properties ∧
        ∃ j, Inherits circle pageInterface j ∧ n ∈ ignoredNames j.properties) ∧
      ∀ n ∈ shownNames pageInterface.properties, ∃ p s,
        lastShown? n pageInterface.properties = some p ∧ s.optional = p.optional ∧
        members.properties.lookup n = some s ∧ ∀ depth ≥ enoughDepth circle [],
          memberSchema (resolve circle depth [interfaceKey pageInterface.name]) p = some s := by
  have hpage : circle.interface? "Page" = some pageInterface := rfl
  exact ⟨hpage, rfl, interfaceMembers_of_inherits hpage⟩

end BlockCheck.Props
