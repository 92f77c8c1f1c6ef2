import BlockCheck.Props.Resolution

/-!
# What a resolution asks for

A resolution takes one step of its own and leaves the rest to others: a type expression asks for the
schemas of those it needs, and an interface for those of its bases and members. The step itself knows
neither guard nor depth. So the guarded resolution, and any other one with the same rules, is told
apart from the next only by how its questions are answered.
-/

namespace BlockCheck.Props

open Source

/-! ## The step -/

structure Answers where
  type : Bool → TypeExpr → Option Schema
  interface : Interface → Option Members

inductive Meaning where
  | special
  | omitted (base keys : TypeExpr)
  | picked (base keys : TypeExpr)
  | partly (base : TypeExpr)
  | list (element : TypeExpr)
  | interface (declared : Interface)
  | typeAlias (value : TypeExpr)
  | unknown

def meaning (outline : Outline) (name : String) (arguments : List TypeExpr) : Meaning :=
  if Schema.specialTags.contains name then .special
  else
    match name, arguments with
    | "Omit", base :: keys :: _ => .omitted base keys
    | "Pick", base :: keys :: _ => .picked base keys
    | "Omit", _ | "Pick", _ => .unknown
    | "Partial", base :: _ => .partly base
    | "Partial", [] => .unknown
    | "Array", [element] => .list element
    | _, _ =>
      match outline.interface? name with
      | some i => .interface i
      | none =>
        match outline.typeAlias? name with
        | some value => .typeAlias value
        | none => .unknown

def ofMeaning (answers : Answers) (optional : Bool) (name : String) : Meaning → Option Schema
  | .special => some (.special name optional)
  | .omitted base keys => (answers.type false base).map (omitKeys keys.literalKeys · optional)
  | .picked base keys => (answers.type false base).map (pickKeys keys.literalKeys · optional)
  | .partly base => (answers.type false base).map (makePartial · optional)
  | .list element => (answers.type false element).map fun s => .array (some s) optional
  | .interface i => (answers.interface i).map (·.schema optional)
  | .typeAlias value => answers.type optional value
  | .unknown => some (.any optional)

theorem reference_eq (outline : Outline) (answers : Answers) (optional : Bool) (name : String)
    (arguments : List TypeExpr) :
    reference outline answers.type answers.interface optional name arguments =
      ofMeaning answers optional name (meaning outline name arguments) := by
  unfold reference meaning
  split
  · rfl
  · split <;> simp only [ofMeaning, Option.map_eq_bind] <;> try rfl
    -- What is left is a name that only a declaration can give a meaning.
    cases hi : outline.interface? name with
    | some i => rfl
    | none => cases ha : outline.typeAlias? name <;> rfl

def typeStep (outline : Outline) (answers : Answers) (optional : Bool) : TypeExpr → Option Schema
  | .predefined text => some (predefined text optional)
  | .null _ => some (.primitive .null optional)
  | .stringLiteral _ | .other _ => some (.any optional)
  | .array _ element => (answers.type false element).map fun s => .array (some s) optional
  | .union _ operands => (operands.mapM (answers.type false)).map (.union · optional)
  | .object _ properties => (addMembers answers.type .empty properties).map (·.schema optional)
  | .parenthesized _ content => answers.type optional content
  | .named name => ofMeaning answers optional name (meaning outline name [])
  | .generic _ name arguments => ofMeaning answers optional name (meaning outline name arguments)

def interfaceStep (outline : Outline) (answers : Answers) (i : Interface) : Option Members :=
  (inherit outline answers.interface .empty i.bases).bind fun inherited =>
    (addMembers answers.type .empty i.properties).map fun own => (inherited.extend own).settled

/-- The answers of those that take the step and are given `answers`. -/
def step (outline : Outline) (answers : Answers) : Answers :=
  ⟨typeStep outline answers, interfaceStep outline answers⟩

def guarded (outline : Outline) (depth : Nat) (guard : Guard) : Answers :=
  ⟨resolve outline depth guard, interfaceMembers outline depth guard⟩

theorem resolve_of_mem {guard : Guard} {t : TypeExpr} (h : t.text ∈ guard) (outline : Outline)
    (depth : Nat) (optional : Bool) :
    resolve outline (depth + 1) guard optional t = some (.any optional) := by
  rw [resolve, if_pos (List.contains_iff_mem.2 h)]

theorem resolve_of_notMem {guard : Guard} {t : TypeExpr} (h : t.text ∉ guard) (outline : Outline)
    (depth : Nat) (optional : Bool) :
    resolve outline (depth + 1) guard optional t =
      (step outline (guarded outline depth (t.text :: guard))).type optional t := by
  rw [resolve, if_neg (mt List.contains_iff_mem.1 h)]
  have hname := reference_eq outline (guarded outline depth (t.text :: guard)) optional
  simp only [guarded] at hname
  cases t with
  | named name => exact hname name []
  | generic _ name arguments => exact hname name arguments
  | _ => simp only [step, typeStep, guarded, Option.map_eq_bind] <;> rfl

theorem interfaceMembers_of_mem {guard : Guard} {i : Interface} (h : interfaceKey i.name ∈ guard)
    (outline : Outline) (depth : Nat) :
    interfaceMembers outline (depth + 1) guard i = some .empty := by
  rw [interfaceMembers, if_pos (List.contains_iff_mem.2 h)]

theorem interfaceMembers_of_notMem {guard : Guard} {i : Interface}
    (h : interfaceKey i.name ∉ guard) (outline : Outline) (depth : Nat) :
    interfaceMembers outline (depth + 1) guard i =
      (step outline (guarded outline depth (interfaceKey i.name :: guard))).interface i := by
  rw [interfaceMembers, if_neg (mt List.contains_iff_mem.1 h)]
  simp only [step, interfaceStep, guarded, Option.map_eq_bind]
  rfl

/-! ## The questions -/

inductive Subject where
  | type (t : TypeExpr)
  | interface (i : Interface)

def Subject.key : Subject → String
  | .type t => t.text
  | .interface i => interfaceKey i.name

def askedByMembers (properties : List Property) : List Subject :=
  properties.filterMap fun p => if p.ignored then none else p.type.map .type

def askedByBases (outline : Outline) (bases : List String) : List Subject :=
  bases.filterMap fun base => (outline.interface? base).map .interface

def askedByMeaning : Meaning → List Subject
  | .omitted base _ | .picked base _ | .partly base => [.type base]
  | .list element => [.type element]
  | .interface i => [.interface i]
  | .typeAlias value => [.type value]
  | .special | .unknown => []

def asked (outline : Outline) : Subject → List Subject
  | .type (.array _ element) => [.type element]
  | .type (.union _ operands) => operands.map .type
  | .type (.object _ properties) => askedByMembers properties
  | .type (.parenthesized _ content) => [.type content]
  | .type (.named name) => askedByMeaning (meaning outline name [])
  | .type (.generic _ name arguments) => askedByMeaning (meaning outline name arguments)
  | .type (.predefined _) | .type (.null _) | .type (.stringLiteral _) | .type (.other _) => []
  | .interface i => askedByBases outline i.bases ++ askedByMembers i.properties

def Asks (outline : Outline) (s s' : Subject) : Prop := s' ∈ asked outline s

/-! ## Better answers

A step depends on the answers to its own questions only, and whoever answers more of them gets further.
-/

def Within {α : Type} (a b : Option α) : Prop := ∀ x, a = some x → b = some x

namespace Within

variable {α β : Type} {a b : Option α}

theorem refl (a : Option α) : Within a a := fun _ h => h

theorem antisymm (h : Within a b) (h' : Within b a) : a = b := by
  cases a with
  | some x => exact (h x rfl).symm
  | none =>
    cases b with
    | none => rfl
    | some y => exact h' y rfl

theorem map (f : α → β) (h : Within a b) : Within (a.map f) (b.map f) := by
  intro y hy
  obtain ⟨x, hx, rfl⟩ := Option.map_eq_some_iff.1 hy
  rw [h x hx, Option.map_some]

theorem bind {f g : α → Option β} (h : Within a b) (hfg : ∀ x, Within (f x) (g x)) :
    Within (a.bind f) (b.bind g) := by
  intro y hy
  obtain ⟨x, hx, hy⟩ := Option.bind_eq_some_iff.1 hy
  rw [h x hx, Option.bind_some]
  exact hfg x y hy

theorem mapM {f g : α → Option β} {l : List α} (h : ∀ x ∈ l, Within (f x) (g x)) :
    Within (l.mapM f) (l.mapM g) := by
  induction l with
  | nil => exact .refl _
  | cons x rest ih =>
    obtain ⟨hx, hrest⟩ := List.forall_mem_cons.1 h
    rw [List.mapM_cons, List.mapM_cons]
    exact hx.bind fun y => (ih hrest).bind fun ys => .refl _

end Within

namespace Answers

def LeAt (a b : Answers) : Subject → Prop
  | .type t => ∀ optional, Within (a.type optional t) (b.type optional t)
  | .interface i => Within (a.interface i) (b.interface i)

def EqAt (a b : Answers) : Subject → Prop
  | .type t => ∀ optional, a.type optional t = b.type optional t
  | .interface i => a.interface i = b.interface i

def DefinedAt (a : Answers) : Subject → Prop
  | .type t => ∀ optional, (a.type optional t).isSome
  | .interface i => (a.interface i).isSome

variable {a b : Answers} {s : Subject}

theorem EqAt.le (h : a.EqAt b s) : a.LeAt b s := by
  cases s with
  | type t => exact fun optional => h optional ▸ .refl _
  | interface i => exact fun _ hx => Eq.trans (Eq.symm h) hx

theorem EqAt.symm (h : a.EqAt b s) : b.EqAt a s := by
  cases s with
  | type t => exact fun optional => (h optional).symm
  | interface i => exact Eq.symm h

theorem LeAt.antisymm (h : a.LeAt b s) (h' : b.LeAt a s) : a.EqAt b s := by
  cases s with
  | type t => exact fun optional => (h optional).antisymm (h' optional)
  | interface i => exact Within.antisymm h h'

end Answers

section Better

variable {a b : Answers} {outline : Outline}

theorem addMembers_within {members : Members} {properties : List Property}
    (h : ∀ s ∈ askedByMembers properties, a.LeAt b s) :
    Within (addMembers a.type members properties) (addMembers b.type members properties) := by
  induction properties generalizing members with
  | nil => exact .refl _
  | cons p rest ih =>
    have hrest : ∀ s ∈ askedByMembers rest, a.LeAt b s := fun s hs =>
      h s (List.filterMap_subset _ (List.subset_cons_self p rest) hs)
    unfold addMembers
    split
    · exact ih hrest
    · rename_i hignored
      split
      · exact ih hrest
      · rename_i t ht
        have hasked : Subject.type t ∈ askedByMembers (p :: rest) :=
          List.mem_filterMap.2 ⟨p, List.mem_cons_self, by simp [hignored, ht]⟩
        exact (h _ hasked p.optional).bind fun s => ih hrest

theorem inherit_within {members : Members} {bases : List String}
    (h : ∀ s ∈ askedByBases outline bases, a.LeAt b s) :
    Within (inherit outline a.interface members bases) (inherit outline b.interface members bases) := by
  induction bases generalizing members with
  | nil => exact .refl _
  | cons base rest ih =>
    have hrest : ∀ s ∈ askedByBases outline rest, a.LeAt b s := fun s hs =>
      h s (List.filterMap_subset _ (List.subset_cons_self base rest) hs)
    unfold inherit
    split
    · exact ih hrest
    · rename_i i hi
      have hasked : Subject.interface i ∈ askedByBases outline (base :: rest) :=
        List.mem_filterMap.2 ⟨base, List.mem_cons_self, by simp [hi]⟩
      exact Within.bind (h _ hasked) fun more => ih hrest

theorem ofMeaning_within {m : Meaning} (h : ∀ s ∈ askedByMeaning m, a.LeAt b s) (optional : Bool)
    (name : String) : Within (ofMeaning a optional name m) (ofMeaning b optional name m) := by
  cases m with
  | special | unknown => exact .refl _
  | omitted base _ | picked base _ | partly base => exact (h (.type base) List.mem_cons_self false).map _
  | list element => exact (h (.type element) List.mem_cons_self false).map _
  | interface i => exact Within.map _ (h (.interface i) List.mem_cons_self)
  | typeAlias value => exact h (.type value) List.mem_cons_self optional

theorem step_leAt {s : Subject} (h : ∀ s' ∈ asked outline s, a.LeAt b s') :
    (step outline a).LeAt (step outline b) s := by
  cases s with
  | type t =>
    intro optional
    cases t with
    | predefined | null | stringLiteral | other => exact .refl _
    | array _ element => exact (h (.type element) List.mem_cons_self false).map _
    | union _ operands =>
      exact (Within.mapM fun t ht => h (.type t) (List.mem_map_of_mem ht) false).map _
    | object _ properties => exact (addMembers_within h).map _
    | parenthesized _ content => exact h (.type content) List.mem_cons_self optional
    | named name => exact ofMeaning_within h optional name
    | generic _ name _ => exact ofMeaning_within h optional name
  | interface i =>
    obtain ⟨hbases, hmembers⟩ := List.forall_mem_append.1 h
    exact (inherit_within hbases).bind fun _ => (addMembers_within hmembers).map _

theorem step_eqAt {s : Subject} (h : ∀ s' ∈ asked outline s, a.EqAt b s') :
    (step outline a).EqAt (step outline b) s :=
  (step_leAt fun s' hs' => (h s' hs').le).antisymm (step_leAt fun s' hs' => (h s' hs').symm.le)

end Better

/-! ## Answered questions

A step whose questions are all answered gives an answer itself.
-/

section Answered

variable {a : Answers} {outline : Outline}

theorem isSome_addMembers (members : Members) {properties : List Property}
    (h : ∀ s ∈ askedByMembers properties, a.DefinedAt s) :
    (addMembers a.type members properties).isSome := by
  induction properties generalizing members with
  | nil => rfl
  | cons p rest ih =>
    have hrest : ∀ s ∈ askedByMembers rest, a.DefinedAt s := fun s hs =>
      h s (List.filterMap_subset _ (List.subset_cons_self p rest) hs)
    unfold addMembers
    split
    · exact ih _ hrest
    · rename_i hignored
      split
      · exact ih _ hrest
      · rename_i t ht
        have hasked : Subject.type t ∈ askedByMembers (p :: rest) :=
          List.mem_filterMap.2 ⟨p, List.mem_cons_self, by simp [hignored, ht]⟩
        obtain ⟨s, hs⟩ := Option.isSome_iff_exists.1 (h _ hasked p.optional)
        simpa [hs] using ih _ hrest

theorem isSome_inherit (members : Members) {bases : List String}
    (h : ∀ s ∈ askedByBases outline bases, a.DefinedAt s) :
    (inherit outline a.interface members bases).isSome := by
  induction bases generalizing members with
  | nil => rfl
  | cons base rest ih =>
    have hrest : ∀ s ∈ askedByBases outline rest, a.DefinedAt s := fun s hs =>
      h s (List.filterMap_subset _ (List.subset_cons_self base rest) hs)
    unfold inherit
    split
    · exact ih _ hrest
    · rename_i i hi
      have hasked : Subject.interface i ∈ askedByBases outline (base :: rest) :=
        List.mem_filterMap.2 ⟨base, List.mem_cons_self, by simp [hi]⟩
      obtain ⟨more, hmore⟩ := Option.isSome_iff_exists.1 (h _ hasked)
      simpa [hmore] using ih _ hrest

theorem isSome_ofMeaning {m : Meaning} (h : ∀ s ∈ askedByMeaning m, a.DefinedAt s) (optional : Bool)
    (name : String) : (ofMeaning a optional name m).isSome := by
  cases m with
  | special | unknown => rfl
  | omitted base _ | picked base _ | partly base =>
    simpa [ofMeaning] using h (.type base) List.mem_cons_self false
  | list element => simpa [ofMeaning] using h (.type element) List.mem_cons_self false
  | interface i => simpa [ofMeaning, Answers.DefinedAt] using h (.interface i) List.mem_cons_self
  | typeAlias value => exact h (.type value) List.mem_cons_self optional

theorem isSome_mapM {α β : Type} {f : α → Option β} {l : List α} (h : ∀ x ∈ l, (f x).isSome) :
    (l.mapM f).isSome := by
  induction l with
  | nil => rfl
  | cons x rest ih =>
    obtain ⟨hx, hrest⟩ := List.forall_mem_cons.1 h
    obtain ⟨y, hy⟩ := Option.isSome_iff_exists.1 hx
    obtain ⟨ys, hys⟩ := Option.isSome_iff_exists.1 (ih hrest)
    simp [List.mapM_cons, hy, hys]

theorem step_definedAt {s : Subject} (h : ∀ s' ∈ asked outline s, a.DefinedAt s') :
    (step outline a).DefinedAt s := by
  cases s with
  | type t =>
    intro optional
    cases t with
    | predefined | null | stringLiteral | other => rfl
    | array _ element =>
      simpa [step, typeStep] using h (.type element) List.mem_cons_self false
    | union _ operands =>
      have hoperands : (operands.mapM (a.type false)).isSome :=
        isSome_mapM fun t ht => h (.type t) (List.mem_map_of_mem ht) false
      simpa [step, typeStep] using hoperands
    | object _ properties =>
      have hmembers : (addMembers a.type .empty properties).isSome := isSome_addMembers _ h
      simpa [step, typeStep] using hmembers
    | parenthesized _ content => exact h (.type content) List.mem_cons_self optional
    | named name => exact isSome_ofMeaning h optional name
    | generic _ name _ => exact isSome_ofMeaning h optional name
  | interface i =>
    obtain ⟨hbases, hmembers⟩ := List.forall_mem_append.1 h
    obtain ⟨inherited, hinherited⟩ := Option.isSome_iff_exists.1 (isSome_inherit .empty hbases)
    obtain ⟨own, hown⟩ := Option.isSome_iff_exists.1 (isSome_addMembers .empty hmembers)
    simp [Answers.DefinedAt, step, interfaceStep, hinherited, hown]

end Answered

end BlockCheck.Props
