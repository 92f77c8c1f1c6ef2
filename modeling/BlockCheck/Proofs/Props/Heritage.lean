import BlockCheck.Proofs.Props.Depth
import BlockCheck.Proofs.Records

/-!
# Heritage

An interface takes over the members of its bases, of their bases, and so on. The guard holds what is
being put together, so a base is not gone into again on its own way, but on another way it is: the
interfaces that are met are those at the end of a way on which no name comes twice. Every interface that
is inherited at all is met on such a way, so that no member is lost where interfaces extend each other
in a circle.
-/

namespace BlockCheck.Props

open Source Relation

def Extends (outline : Outline) (i j : Interface) : Prop :=
  ∃ base ∈ i.bases, outline.interface? base = some j

/-- The second interface is the first one, or it is inherited by it. -/
def Inherits (outline : Outline) : Interface → Interface → Prop := ReflTransGen (Extends outline)

/-- As before, with bases only whose names are not in the guard. -/
def InheritsOutside (outline : Outline) (guard : Guard) : Interface → Interface → Prop :=
  ReflTransGen fun i j => Extends outline i j ∧ interfaceKey j.name ∉ guard

/-- The second interface is met while the first one is put together. -/
inductive Meets (outline : Outline) : Guard → Interface → Interface → Prop
  | self {guard : Guard} {i : Interface} : interfaceKey i.name ∉ guard → Meets outline guard i i
  | base {guard : Guard} {i j k : Interface} : interfaceKey i.name ∉ guard → Extends outline i j →
      Meets outline (interfaceKey i.name :: guard) j k → Meets outline guard i k

variable {outline : Outline} {guard guard' : Guard} {i j k : Interface} {name : String}

/-! ## Ways through the bases -/

theorem Extends.interface? (h : Extends outline i j) : outline.interface? j.name = some j := by
  obtain ⟨base, -, hj⟩ := h
  obtain ⟨rfl, -⟩ := exists_of_interface? hj
  exact hj

theorem eq_of_interfaceKey_eq (hi : outline.interface? i.name = some i)
    (hj : outline.interface? j.name = some j) (h : interfaceKey i.name = interfaceKey j.name) : i = j := by
  rw [interfaceKey_inj h, hj] at hi
  exact (Option.some.inj hi).symm

theorem Meets.key_notMem (h : Meets outline guard i k) : interfaceKey i.name ∉ guard := by
  cases h with
  | self hi => exact hi
  | base hi => exact hi

theorem Meets.mono (h : Meets outline guard i k) (hsub : guard' ⊆ guard) : Meets outline guard' i k := by
  induction h generalizing guard' with
  | self hi => exact .self fun hmem => hi (hsub hmem)
  | base hi hbase _ ih => exact .base (fun hmem => hi (hsub hmem)) hbase (ih (List.cons_subset_cons _ hsub))

/-- Going on from a base: either the way keeps clear of where it came from, or it comes back there
and may as well start there. -/
theorem Meets.through (hi : outline.interface? i.name = some i) (h : Meets outline guard j k)
    (hj : outline.interface? j.name = some j) :
    Meets outline (interfaceKey i.name :: guard) j k ∨ Meets outline guard i k := by
  -- Along the way, a base with the name of `i` is `i` itself, and the rest is a way of its own.
  induction h with
  | @self guard j hfree =>
    by_cases hij : interfaceKey j.name = interfaceKey i.name
    · obtain rfl := eq_of_interfaceKey_eq hj hi hij
      exact .inr (.self hfree)
    · exact .inl (.self fun hmem => (List.mem_cons.1 hmem).elim hij hfree)
  | @base guard j l k hfree hbase hrest ih =>
    by_cases hij : interfaceKey j.name = interfaceKey i.name
    · obtain rfl := eq_of_interfaceKey_eq hj hi hij
      exact .inr (.base hfree hbase hrest)
    · rcases ih hbase.interface? with hclear | hback
      · refine .inl (.base (fun hmem => (List.mem_cons.1 hmem).elim hij hfree) hbase ?_)
        exact hclear.mono (List.Perm.swap _ _ _).subset
      · exact .inr (hback.mono (List.subset_cons_self _ _))

theorem Meets.head (hi : outline.interface? i.name = some i) (hfree : interfaceKey i.name ∉ guard)
    (hbase : Extends outline i j) (h : Meets outline guard j k) : Meets outline guard i k := by
  rcases h.through hi hbase.interface? with hclear | hback
  · exact .base hfree hbase hclear
  · exact hback

theorem Meets.inheritsOutside (h : Meets outline guard i k) : InheritsOutside outline guard i k := by
  induction h with
  | self => exact .refl
  | base _ hbase hrest ih =>
    refine .head ⟨hbase, fun hmem => hrest.key_notMem (List.mem_cons_of_mem _ hmem)⟩ ?_
    refine ReflTransGen.mono ?_ _ _ ih
    exact fun _ _ hstep => ⟨hstep.1, fun hmem => hstep.2 (List.mem_cons_of_mem _ hmem)⟩

/-- What is inherited outside the guard is met, however the interfaces extend each other. -/
theorem meets_iff (hi : outline.interface? i.name = some i) :
    Meets outline guard i k ↔ interfaceKey i.name ∉ guard ∧ InheritsOutside outline guard i k := by
  refine ⟨fun h => ⟨h.key_notMem, h.inheritsOutside⟩, ?_⟩
  rintro ⟨hfree, h⟩
  induction h using ReflTransGen.head_induction_on with
  | refl => exact .self hfree
  | head hstep _ ih => exact .head hi hfree hstep.1 (ih hstep.1.interface? hstep.2)

theorem inheritsOutside_nil_iff : InheritsOutside outline [] i k ↔ Inherits outline i k := by
  simp [InheritsOutside, Inherits]

theorem meets_nil_iff (hi : outline.interface? i.name = some i) :
    Meets outline [] i k ↔ Inherits outline i k := by
  rw [meets_iff hi, inheritsOutside_nil_iff]
  exact and_iff_right List.not_mem_nil

/-! ## Names of members -/

def shownNames (properties : List Property) : List String :=
  (properties.filter fun p => !p.ignored).map (·.name)

def ignoredNames (properties : List Property) : List String :=
  (properties.filter (·.ignored)).map (·.name)

theorem mem_shownNames_cons (p : Property) (rest : List Property) :
    name ∈ shownNames (p :: rest) ↔ (p.ignored = false ∧ name = p.name) ∨ name ∈ shownNames rest := by
  unfold shownNames
  cases hignored : p.ignored <;> simp [hignored]

theorem mem_ignoredNames_cons (p : Property) (rest : List Property) :
    name ∈ ignoredNames (p :: rest) ↔ (p.ignored = true ∧ name = p.name) ∨ name ∈ ignoredNames rest := by
  unfold ignoredNames
  cases hignored : p.ignored <;> simp [hignored]

section Members

variable {members more result : Members}

theorem mem_addOnce {names : List String} {added : String} :
    (name ∈ if names.contains added then names else names ++ [added]) ↔
      name = added ∨ name ∈ names := by
  split
  · rename_i hmem
    rw [List.contains_iff_mem] at hmem
    exact ⟨.inr, fun h => h.elim (· ▸ hmem) id⟩
  · rw [List.mem_append, List.mem_singleton, or_comm]

theorem mem_ignored_addIgnored {added : String} :
    name ∈ (members.addIgnored added).ignored ↔ name = added ∨ name ∈ members.ignored := mem_addOnce

theorem mem_ignored_extend :
    name ∈ (members.extend more).ignored ↔ name ∈ more.ignored ∨ name ∈ members.ignored := by
  have hfold : ∀ added names : List String,
      name ∈ added.foldl (fun ns n => if ns.contains n then ns else ns ++ [n]) names ↔
        name ∈ added ∨ name ∈ names := by
    intro added
    induction added with
    | nil => simp
    | cons n rest ih =>
      intro names
      rw [List.foldl_cons, ih, mem_addOnce, List.mem_cons]
      tauto
  exact hfold more.ignored members.ignored

theorem mem_ignored_settled :
    name ∈ members.settled.ignored ↔
      name ∈ members.ignored ∧ name ∉ Record.keys members.properties := by
  rw [Members.settled, List.mem_filter, ← Record.hasKey_iff]
  simp

def memberSchema (resolve : Bool → TypeExpr → Option Schema) (p : Property) : Option Schema :=
  match p.type with
  | none => some (.any p.optional)
  | some t => resolve p.optional t

section Own

variable {resolve : Bool → TypeExpr → Option Schema} {properties : List Property}

theorem addMembers_cons_of_ignored {p : Property} (hp : p.ignored = true) (rest : List Property) :
    addMembers resolve members (p :: rest) = addMembers resolve (members.addIgnored p.name) rest := by
  rw [addMembers, if_pos hp]

theorem addMembers_cons_of_shown {p : Property} (hp : p.ignored = false) (rest : List Property) :
    addMembers resolve members (p :: rest) =
      (memberSchema resolve p).bind fun s => addMembers resolve (members.addProperty p.name s) rest := by
  rw [addMembers, if_neg (by simp [hp]), memberSchema]
  cases p.type <;> rfl

theorem mem_keys_addMembers (h : addMembers resolve members properties = some result) :
    name ∈ Record.keys result.properties ↔
      name ∈ shownNames properties ∨ name ∈ Record.keys members.properties := by
  induction properties generalizing members with
  | nil =>
    obtain rfl := Option.some.inj h
    simp [shownNames]
  | cons p rest ih =>
    rw [mem_shownNames_cons]
    cases hp : p.ignored with
    | true =>
      rw [addMembers_cons_of_ignored hp] at h
      rw [ih h]
      simp [Members.addIgnored]
    | false =>
      rw [addMembers_cons_of_shown hp] at h
      obtain ⟨s, -, h⟩ := Option.bind_eq_some_iff.1 h
      rw [ih h, Members.addProperty, Record.mem_keys_insert]
      tauto

theorem mem_ignored_addMembers (h : addMembers resolve members properties = some result) :
    name ∈ result.ignored ↔ name ∈ ignoredNames properties ∨ name ∈ members.ignored := by
  induction properties generalizing members with
  | nil =>
    obtain rfl := Option.some.inj h
    simp [ignoredNames]
  | cons p rest ih =>
    rw [mem_ignoredNames_cons]
    cases hp : p.ignored with
    | true =>
      rw [addMembers_cons_of_ignored hp] at h
      rw [ih h, mem_ignored_addIgnored]
      tauto
    | false =>
      rw [addMembers_cons_of_shown hp] at h
      obtain ⟨s, -, h⟩ := Option.bind_eq_some_iff.1 h
      rw [ih h]
      simp [Members.addProperty]

end Own

end Members

/-! ## One step and the run -/

/-- Holds of the members of an interface if it holds of its own ones, or of those of a base. -/
structure Gathered (P : Members → Prop) (Q : List Property → Prop) : Prop where
  empty : ¬P .empty
  extend : ∀ members more : Members, P (members.extend more) ↔ P more ∨ P members
  settled : ∀ members : Members, P members.settled ↔ P members
  own : ∀ {resolve properties own}, addMembers resolve .empty properties = some own →
    (P own ↔ Q properties)

section Gathered

variable {P : Members → Prop} {Q : List Property → Prop} {a : Answers} {members result : Members}

theorem Gathered.inherit {bases : List String} (hP : Gathered P Q)
    (h : inherit outline a.interface members bases = some result) :
    P result ↔ (∃ j, (∃ base ∈ bases, outline.interface? base = some j) ∧
      ∃ more, a.interface j = some more ∧ P more) ∨ P members := by
  induction bases generalizing members with
  | nil =>
    obtain rfl := Option.some.inj h
    simp
  | cons base rest ih =>
    unfold Props.inherit at h
    simp only [List.mem_cons, or_and_right, exists_or, exists_eq_left]
    split at h
    · rename_i hnone
      rw [ih h]
      simp [hnone]
    · rename_i i hi
      obtain ⟨more, hmore, h⟩ := Option.bind_eq_some_iff.1 h
      rw [ih h, hP.extend]
      simp only [hi, Option.some.injEq, exists_eq_left', hmore]
      exact or_left_comm.trans or_assoc.symm

theorem Gathered.step (hP : Gathered P Q) (h : interfaceStep outline a i = some members) :
    P members ↔ Q i.properties ∨ ∃ j, Extends outline i j ∧
      ∃ more, a.interface j = some more ∧ P more := by
  obtain ⟨inherited, hinherited, h⟩ := Option.bind_eq_some_iff.1 h
  obtain ⟨own, hown, rfl⟩ := Option.map_eq_some_iff.1 h
  rw [hP.settled, hP.extend, hP.own hown, hP.inherit hinherited, or_iff_left hP.empty]
  rfl

theorem exists_of_inherit {bases : List String}
    (h : inherit outline a.interface members bases = some result)
    (hj : ∃ base ∈ bases, outline.interface? base = some j) : ∃ more, a.interface j = some more := by
  induction bases generalizing members with
  | nil =>
    obtain ⟨base, hbase, -⟩ := hj
    cases hbase
  | cons base rest ih =>
    obtain ⟨base', hbase', hj⟩ := hj
    unfold inherit at h
    rcases List.mem_cons.1 hbase' with rfl | hbase'
    · rw [hj] at h
      obtain ⟨more, hmore, -⟩ := Option.bind_eq_some_iff.1 h
      exact ⟨more, hmore⟩
    · split at h
      · exact ih h ⟨base', hbase', hj⟩
      · obtain ⟨_, -, h⟩ := Option.bind_eq_some_iff.1 h
        exact ih h ⟨base', hbase', hj⟩

theorem exists_of_interfaceStep (h : interfaceStep outline a i = some members)
    (hj : Extends outline i j) : ∃ more, a.interface j = some more := by
  obtain ⟨inherited, hinherited, -⟩ := Option.bind_eq_some_iff.1 h
  exact exists_of_inherit hinherited hj

theorem Gathered.run (hP : Gathered P Q) {depth : Nat}
    (h : interfaceMembers outline depth guard i = some members) :
    P members ↔ ∃ j, Meets outline guard i j ∧ Q j.properties := by
  induction depth generalizing guard i members with
  | zero => cases h
  | succ depth ih =>
    by_cases hkey : interfaceKey i.name ∈ guard
    · obtain rfl := Option.some.inj ((interfaceMembers_of_mem hkey outline depth).symm.trans h)
      refine iff_of_false hP.empty ?_
      rintro ⟨j, hmeets, -⟩
      exact hmeets.key_notMem hkey
    · have hstep := (interfaceMembers_of_notMem hkey outline depth).symm.trans h
      rw [hP.step hstep]
      constructor
      · rintro (hown | ⟨j, hbase, more, hmore, hj⟩)
        · exact ⟨i, .self hkey, hown⟩
        · obtain ⟨k, hk, hQ⟩ := (ih hmore).1 hj
          exact ⟨k, .base hkey hbase hk, hQ⟩
      · rintro ⟨k, hk, hQ⟩
        cases hk with
        | self => exact .inl hQ
        | @base _ _ j _ _ hbase hk =>
          obtain ⟨more, hmore⟩ := exists_of_interfaceStep hstep hbase
          exact .inr ⟨j, hbase, more, hmore, (ih hmore).2 ⟨k, hk, hQ⟩⟩

end Gathered

theorem gathered_keys (name : String) :
    Gathered (fun m => name ∈ Record.keys m.properties) (name ∈ shownNames ·) where
  empty := List.not_mem_nil
  extend _ _ := Record.mem_keys_insertAll
  settled _ := .rfl
  own h := (mem_keys_addMembers h).trans (or_iff_left List.not_mem_nil)

theorem gathered_names (name : String) :
    Gathered (fun m => name ∈ Record.keys m.properties ∨ name ∈ m.ignored)
      (fun ps => name ∈ shownNames ps ∨ name ∈ ignoredNames ps) where
  empty := by simp [Members.empty, Record.keys]
  extend members more := by
    have hkeys : name ∈ Record.keys (members.extend more).properties ↔
        name ∈ Record.keys more.properties ∨ name ∈ Record.keys members.properties :=
      Record.mem_keys_insertAll
    rw [hkeys, mem_ignored_extend]
    tauto
  settled members := by
    rw [mem_ignored_settled]
    simp only [Members.settled]
    tauto
  own h := by
    rw [mem_keys_addMembers h, mem_ignored_addMembers h]
    simp [Members.empty, Record.keys]

section Run

variable {depth : Nat} {members : Members}

theorem mem_keys_iff_meets (h : interfaceMembers outline depth guard i = some members) :
    name ∈ Record.keys members.properties ↔
      ∃ j, Meets outline guard i j ∧ name ∈ shownNames j.properties := (gathered_keys name).run h

theorem notMem_keys_of_ignored (h : interfaceMembers outline depth guard i = some members)
    (hname : name ∈ members.ignored) : name ∉ Record.keys members.properties := by
  cases depth with
  | zero => cases h
  | succ depth =>
    by_cases hkey : interfaceKey i.name ∈ guard
    · obtain rfl := Option.some.inj ((interfaceMembers_of_mem hkey outline depth).symm.trans h)
      cases hname
    · have hstep := (interfaceMembers_of_notMem hkey outline depth).symm.trans h
      obtain ⟨inherited, -, hstep⟩ := Option.bind_eq_some_iff.1 hstep
      obtain ⟨own, -, rfl⟩ := Option.map_eq_some_iff.1 hstep
      exact (mem_ignored_settled.1 hname).2

theorem mem_ignored_iff_meets (h : interfaceMembers outline depth guard i = some members) :
    name ∈ members.ignored ↔ name ∉ Record.keys members.properties ∧
      ∃ j, Meets outline guard i j ∧ name ∈ ignoredNames j.properties := by
  have hnames := (gathered_names name).run h
  have hkeys := @mem_keys_iff_meets _ _ _ name _ _ h
  constructor
  · intro hname
    have hfree := notMem_keys_of_ignored h hname
    obtain ⟨j, hmeets, hshown | hignored⟩ := hnames.1 (.inr hname)
    · exact absurd (hkeys.2 ⟨j, hmeets, hshown⟩) hfree
    · exact ⟨hfree, j, hmeets, hignored⟩
  · rintro ⟨hfree, j, hmeets, hignored⟩
    exact (hnames.2 ⟨j, hmeets, .inr hignored⟩).resolve_left hfree

end Run

end BlockCheck.Props
