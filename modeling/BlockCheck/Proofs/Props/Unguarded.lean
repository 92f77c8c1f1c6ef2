import BlockCheck.Proofs.Props.Depth

/-!
# Files that need no guard

The guard is there for declarations that refer to themselves, but it goes by texts. Where the
same text always is the same type, a text that comes back is a subject that comes back, and a subject
comes back only through a declaration that refers to itself: what is no reference leads to something
smaller. So in a file without such declarations the guard never answers, and the schemas are
those of the rules alone.
-/

namespace BlockCheck.Props

open Source Relation

/-- The answers of the rules alone, as far as the depth allows. -/
def unguarded (outline : Outline) : Nat → Answers
  | 0 => ⟨fun _ _ => none, fun _ => none⟩
  | depth + 1 => step outline (unguarded outline depth)

/-! ## What is written in a file -/

def children : TypeExpr → List TypeExpr
  | .array _ element => [element]
  | .union _ operands => operands
  | .object _ properties => properties.filterMap (·.type)
  | .parenthesized _ content => [content]
  | .generic _ _ arguments => arguments
  | .predefined _ | .null _ | .stringLiteral _ | .named _ | .other _ => []

/-- The second subject is written inside the first one, one level down. -/
inductive Part : Subject → Subject → Prop
  | child {t u : TypeExpr} : u ∈ children t → Part (.type t) (.type u)
  | member {i : Interface} {p : Property} {u : TypeExpr} :
    p ∈ i.properties → p.type = some u → Part (.interface i) (.type u)

def annotationsOfValue : Value → List TypeExpr
  | .function f => f.parameter.toList
  | .name _ | .other => []

def annotationsOfBody : DeclarationBody → List TypeExpr
  | .function _ f => f.parameter.toList
  | .variable _ value => value.toList.flatMap annotationsOfValue
  | .interface i => i.properties.filterMap (·.type)
  | .typeAlias _ value => [value]

def annotations (outline : Outline) : List TypeExpr :=
  (outline.exports.flatMap fun
    | .default value => annotationsOfValue value
    | .fromModule _ _ => []) ++
  outline.declarations.flatMap fun d => annotationsOfBody d.body

def HasType (outline : Outline) (t : TypeExpr) : Prop :=
  ∃ root ∈ annotations outline, ReflTransGen Part (.type root) (.type t)

/-- What is relied on in the way a file is written: types with the same text have the same shape, and
no type reads like the head of an interface. -/
structure Legible (outline : Outline) : Prop where
  shape : ∀ t u, HasType outline t → HasType outline u → t.text = u.text → t = u
  heads : ∀ t name i, HasType outline t → outline.interface? name = some i →
    t.text ≠ interfaceKey i.name

def InFile (outline : Outline) : Subject → Prop
  | .type t => HasType outline t
  | .interface i => outline.interface? i.name = some i

/-! ## References between declarations -/

inductive Declared where
  | interface (i : Interface)
  | typeAlias (name : String) (value : TypeExpr)

def Declared.subject : Declared → Subject
  | .interface i => .interface i
  | .typeAlias _ value => .type value

def declared? (outline : Outline) (name : String) : Option Declared :=
  match outline.interface? name with
  | some i => some (.interface i)
  | none => (outline.typeAlias? name).map (.typeAlias name)

def nameOf? : TypeExpr → Option String
  | .named name | .generic _ name _ => some name
  | _ => none

inductive Names (outline : Outline) : Subject → Declared → Prop
  | type {t : TypeExpr} {name : String} {d : Declared} :
    nameOf? t = some name → declared? outline name = some d → Names outline (.type t) d
  | base {i j : Interface} {base : String} :
    base ∈ i.bases → outline.interface? base = some j → Names outline (.interface i) (.interface j)

/-- Something inside the first declaration names the second one. -/
def RefersTo (outline : Outline) (d d' : Declared) : Prop :=
  ∃ s, ReflTransGen Part d.subject s ∧ Names outline s d'

/-- No declaration refers to itself, directly or through others. -/
def Acyclic (outline : Outline) : Prop := ∀ d, ¬TransGen (RefersTo outline) d d

variable {outline : Outline} {s s' : Subject} {d : Declared}

/-! ## Questions lead inwards or to a declaration -/

theorem Asks.part_or_names (h : Asks outline s s') :
    Part s s' ∨ ∃ d, Names outline s d ∧ s' = d.subject := by
  have hmeaning : ∀ t name arguments, nameOf? t = some name → (∀ u ∈ arguments, u ∈ children t) →
      s' ∈ askedByMeaning (meaning outline name arguments) →
      Part (.type t) s' ∨ ∃ d, Names outline (.type t) d ∧ s' = d.subject := by
    intro t name arguments hname harguments h
    rcases mem_askedByMeaning h with ⟨u, hu, rfl⟩ | ⟨i, hi, rfl⟩ | ⟨value, hnone, hvalue, rfl⟩
    · exact .inl (.child (harguments u hu))
    · have hdeclared : declared? outline name = some (.interface i) := by rw [declared?, hi]
      exact .inr ⟨_, .type hname hdeclared, rfl⟩
    · have hdeclared : declared? outline name = some (.typeAlias name value) := by
        rw [declared?, hnone, hvalue, Option.map_some]
      exact .inr ⟨_, .type hname hdeclared, rfl⟩
  cases s with
  | type t =>
    cases t with
    | predefined | null | stringLiteral | other => cases h
    | array _ element =>
      obtain rfl := List.mem_singleton.1 h
      exact .inl (.child List.mem_cons_self)
    | union _ operands =>
      obtain ⟨t, ht, rfl⟩ := List.mem_map.1 h
      exact .inl (.child ht)
    | object _ properties =>
      obtain ⟨p, hp, t, ht, rfl⟩ := mem_askedByMembers h
      exact .inl (.child (List.mem_filterMap.2 ⟨p, hp, ht⟩))
    | parenthesized _ content =>
      obtain rfl := List.mem_singleton.1 h
      exact .inl (.child List.mem_cons_self)
    | named name => exact hmeaning _ name [] rfl nofun h
    | generic _ name arguments => exact hmeaning _ name arguments rfl (fun _ hu => hu) h
  | interface i =>
    rcases List.mem_append.1 h with h | h
    · obtain ⟨base, hbase, j, hj, rfl⟩ := mem_askedByBases h
      exact .inr ⟨_, .base hbase hj, rfl⟩
    · obtain ⟨p, hp, t, ht, rfl⟩ := mem_askedByMembers h
      exact .inl (.member hp ht)

theorem sizeOf_lt_of_property {properties : List Property} {p : Property} {t : TypeExpr}
    (hp : p ∈ properties) (ht : p.type = some t) : sizeOf t < sizeOf properties := by
  have hlt := List.sizeOf_lt_of_mem hp
  obtain ⟨name, optional, type, ignored⟩ := p
  subst ht
  simp only [PropertyOf.mk.sizeOf_spec, Option.some.sizeOf_spec] at hlt
  omega

theorem Part.sizeOf_lt (h : Part s s') : sizeOf s' < sizeOf s := by
  cases h with
  | @child t u hu =>
    cases t with
    | predefined | null | stringLiteral | named | other => cases hu
    | array _ element | parenthesized _ element =>
      obtain rfl := List.mem_singleton.1 hu
      simp only [Subject.type.sizeOf_spec, TypeExpr.array.sizeOf_spec, TypeExpr.parenthesized.sizeOf_spec]
      omega
    | union _ ts | generic _ _ ts =>
      have hlt := List.sizeOf_lt_of_mem (show u ∈ ts from hu)
      simp
      omega
    | object _ properties =>
      obtain ⟨p, hp, ht⟩ := List.mem_filterMap.1 hu
      have hlt := sizeOf_lt_of_property hp ht
      simp
      omega
  | @member i p u hp hu =>
    have hlt := sizeOf_lt_of_property hp hu
    obtain ⟨name, bases, properties⟩ := i
    simp only [Subject.type.sizeOf_spec, Subject.interface.sizeOf_spec,
      Interface.mk.sizeOf_spec] at hlt ⊢
    omega

theorem parts_or_names_of_asks (h : TransGen (Asks outline) s s') :
    sizeOf s' < sizeOf s ∨ ∃ s₀ d, ReflTransGen (Asks outline) s s₀ ∧ Names outline s₀ d ∧
      ReflTransGen (Asks outline) d.subject s' := by
  induction h with
  | single h =>
    rcases h.part_or_names with h | ⟨d, hd, rfl⟩
    · exact .inl h.sizeOf_lt
    · exact .inr ⟨s, d, .refl, hd, .refl⟩
  | tail hbefore h ih =>
    rcases ih with hlt | ⟨s₀, d, hs₀, hd, hafter⟩
    · rcases h.part_or_names with hpart | ⟨d, hd, rfl⟩
      · exact .inl (hpart.sizeOf_lt.trans hlt)
      · exact .inr ⟨_, d, hbefore.to_reflTransGen, hd, .refl⟩
    · exact .inr ⟨s₀, d, hs₀, hd, hafter.tail h⟩

theorem exists_declared_of_asks {d : Declared} (h : ReflTransGen (Asks outline) d.subject s) :
    ∃ e, ReflTransGen (RefersTo outline) d e ∧ ReflTransGen Part e.subject s := by
  induction h with
  | refl => exact ⟨d, .refl, .refl⟩
  | tail _ hstep ih =>
    obtain ⟨e, hde, hpart⟩ := ih
    rcases hstep.part_or_names with h | ⟨f, hf, rfl⟩
    · exact ⟨e, hde, hpart.tail h⟩
    · exact ⟨f, hde.tail ⟨_, hpart, hf⟩, .refl⟩

theorem not_asks_self (hacyclic : Acyclic outline) (s : Subject) : ¬TransGen (Asks outline) s s := by
  intro h
  rcases parts_or_names_of_asks h with hlt | ⟨s₀, d, hs₀, hd, hafter⟩
  · exact lt_irrefl _ hlt
  · obtain ⟨e, hde, hpart⟩ := exists_declared_of_asks (hafter.trans hs₀)
    exact hacyclic d (.tail' hde ⟨s₀, hpart, hd⟩)

/-! ## Keys that tell subjects apart -/

theorem inFile_interface {name : String} {i : Interface} (h : outline.interface? name = some i) :
    InFile outline (.interface i) := by
  obtain ⟨rfl, -⟩ := exists_of_interface? h
  exact h

theorem hasType_of_declaration {declaration : Declaration} (hd : declaration ∈ outline.declarations)
    {t : TypeExpr} (ht : t ∈ annotationsOfBody declaration.body) : HasType outline t :=
  ⟨t, List.mem_append_right _ (List.mem_flatMap.2 ⟨declaration, hd, ht⟩), .refl⟩

theorem hasType_of_alias {name : String} {value : TypeExpr}
    (h : outline.typeAlias? name = some value) : HasType outline value := by
  obtain ⟨declaration, hd, hbody⟩ := exists_of_typeAlias? h
  refine hasType_of_declaration hd ?_
  rw [hbody]
  exact List.mem_cons_self

theorem hasType_of_member {name : String} {i : Interface} (h : outline.interface? name = some i)
    {p : Property} {t : TypeExpr} (hp : p ∈ i.properties) (ht : p.type = some t) :
    HasType outline t := by
  obtain ⟨-, declaration, hd, hbody⟩ := exists_of_interface? h
  refine hasType_of_declaration hd ?_
  rw [hbody]
  exact List.mem_filterMap.2 ⟨p, hp, ht⟩

theorem InFile.part (hs : InFile outline s) (h : Part s s') : InFile outline s' := by
  cases h with
  | child hu =>
    obtain ⟨root, hroot, hinside⟩ := hs
    exact ⟨root, hroot, hinside.tail (.child hu)⟩
  | member hp hu => exact hasType_of_member hs hp hu

theorem InFile.parts (hs : InFile outline s) (h : ReflTransGen Part s s') : InFile outline s' := by
  induction h with
  | refl => exact hs
  | tail _ hpart ih => exact ih.part hpart

theorem inFile_declared {name : String} {d : Declared} (h : declared? outline name = some d) :
    InFile outline d.subject := by
  unfold declared? at h
  split at h
  · rename_i i hi
    obtain rfl : Declared.interface i = d := by simpa using h
    exact inFile_interface hi
  · obtain ⟨value, hvalue, rfl⟩ := Option.map_eq_some_iff.1 h
    exact hasType_of_alias hvalue

theorem Names.declared (h : Names outline s d) : ∃ name, declared? outline name = some d := by
  cases h with
  | type _ hd => exact ⟨_, hd⟩
  | @base _ j base _ hj => exact ⟨base, by rw [declared?, hj]⟩

theorem InFile.asks (hs : InFile outline s) (h : ReflTransGen (Asks outline) s s') :
    InFile outline s' := by
  induction h with
  | refl => exact hs
  | tail _ hstep ih =>
    rcases hstep.part_or_names with h | ⟨d, hd, rfl⟩
    · exact ih.part h
    · obtain ⟨name, hname⟩ := hd.declared
      exact inFile_declared hname

theorem Legible.eq_of_key_eq (hlegible : Legible outline) (hs : InFile outline s)
    (hs' : InFile outline s') (h : s.key = s'.key) : s = s' := by
  cases s with
  | type t =>
    cases s' with
    | type u => exact congrArg Subject.type (hlegible.shape t u hs hs' h)
    | interface i => exact absurd h (hlegible.heads t i.name i hs hs')
  | interface i =>
    cases s' with
    | type u => exact absurd h.symm (hlegible.heads u i.name i hs' hs)
    | interface j =>
      have hname : i.name = j.name := interfaceKey_inj h
      have hsame : some i = some j := hs.symm.trans ((congrArg outline.interface? hname).trans hs')
      exact congrArg Subject.interface (Option.some.inj hsame)

/-! ## The guard is never met -/

inductive Met (outline : Outline) (start : Subject) : Guard → Subject → Prop
  | start : Met outline start [] start
  | ask {guard : Guard} {s s' : Subject} : Met outline start guard s → s.key ∉ guard →
    Asks outline s s' → Met outline start (s.key :: guard) s'

variable {start : Subject} {guard : Guard}

theorem Met.asks (h : Met outline start guard s) : ReflTransGen (Asks outline) start s := by
  induction h with
  | start => exact .refl
  | ask _ _ hasks ih => exact ih.tail hasks

theorem Met.exists_of_mem (h : Met outline start guard s) {key : String} (hkey : key ∈ guard) :
    ∃ s₀, s₀.key = key ∧ ReflTransGen (Asks outline) start s₀ ∧ TransGen (Asks outline) s₀ s := by
  induction h with
  | start => cases hkey
  | ask hmet _ hasks ih =>
    rcases List.mem_cons.1 hkey with rfl | hkey
    · exact ⟨_, rfl, hmet.asks, .single hasks⟩
    · obtain ⟨s₀, hs₀, hbefore, hafter⟩ := ih hkey
      exact ⟨s₀, hs₀, hbefore, hafter.tail hasks⟩

section NoGuard

variable (hlegible : Legible outline) (hacyclic : Acyclic outline) (hstart : InFile outline start)

include hlegible hacyclic hstart

theorem Met.key_notMem (h : Met outline start guard s) : s.key ∉ guard := by
  intro hkey
  obtain ⟨s₀, heq, hbefore, hafter⟩ := h.exists_of_mem hkey
  have hsame : s₀ = s :=
    hlegible.eq_of_key_eq (hstart.asks hbefore) (hstart.asks h.asks) heq
  exact not_asks_self hacyclic s (hsame ▸ hafter)

theorem guarded_eqAt_unguarded (depth : Nat) (h : Met outline start guard s) :
    (guarded outline depth guard).EqAt (unguarded outline depth) s := by
  induction depth generalizing guard s with
  | zero =>
    cases s with
    | type t => exact fun _ => rfl
    | interface i => exact rfl
  | succ depth ih =>
    have hfree : s.key ∉ guard := h.key_notMem hlegible hacyclic hstart
    have hstep : (step outline (guarded outline depth (s.key :: guard))).EqAt
        (step outline (unguarded outline depth)) s :=
      step_eqAt fun s' hs' => ih (h.ask hfree hs')
    have hguarded := guarded_of_notMem hfree outline depth
    cases s with
    | type t => exact fun optional => (hguarded optional).trans (hstep optional)
    | interface i => exact Eq.trans hguarded hstep

end NoGuard

/-- Where no declaration refers to itself, the guarded resolution of every type and every interface
of the file ends with what the rules alone give, and it never comes upon a subject that its guard
holds. -/
theorem resolve_eq_unguarded_of_acyclic (hlegible : Legible outline) (hacyclic : Acyclic outline) :
    (∀ t, HasType outline t → ∀ optional, ∃ schema, ∀ depth ≥ enoughDepth outline (typeTexts t),
      resolve outline depth [] optional t = some schema ∧
        (unguarded outline depth).type optional t = some schema) ∧
    (∀ name i, outline.interface? name = some i → ∃ members, ∀ depth ≥ enoughDepth outline [],
      interfaceMembers outline depth [] i = some members ∧
        (unguarded outline depth).interface i = some members) ∧
    ∀ start, InFile outline start → ∀ guard s, Met outline start guard s → s.key ∉ guard := by
  refine ⟨fun t ht optional => ?_, fun name i hi => ?_, fun start hstart guard s h =>
    h.key_notMem hlegible hacyclic hstart⟩
  · have hdefined := guarded_definedAt_enoughDepth (s := .type t) (typeTexts t)
      (List.subset_append_left (typeTexts t) (declaredKeys outline))
    obtain ⟨schema, hschema⟩ := Option.isSome_iff_exists.1 (hdefined optional)
    refine ⟨schema, fun depth hdepth => ?_⟩
    have hmore : resolve outline depth [] optional t = some schema :=
      guarded_leAt hdepth outline [] (.type t) optional schema hschema
    have hsame := guarded_eqAt_unguarded hlegible hacyclic (show InFile outline (.type t) from ht)
      depth .start
    exact ⟨hmore, (hsame optional).symm.trans hmore⟩
  · have hdefined := guarded_definedAt_enoughDepth (s := .interface i) []
      (keysOf_interface_subset hi)
    obtain ⟨members, hmembers⟩ := Option.isSome_iff_exists.1 hdefined
    refine ⟨members, fun depth hdepth => ?_⟩
    have hmore : interfaceMembers outline depth [] i = some members :=
      guarded_leAt hdepth outline [] (.interface i) members hmembers
    have hsame := guarded_eqAt_unguarded hlegible hacyclic (inFile_interface hi) depth .start
    exact ⟨hmore, Eq.trans (Eq.symm hsame) hmore⟩

/-! ## A file without cycles

`interface Props { first: Item; rest: Item[] }` beside `interface Item { title: string }`: the same
type is met twice, but never on its own way.
-/

theorem mem_of_hasType {types : List TypeExpr} (hroots : ∀ t ∈ annotations outline, t ∈ types)
    (hclosed : ∀ t ∈ types, ∀ u ∈ children t, u ∈ types) {t : TypeExpr} (ht : HasType outline t) :
    t ∈ types := by
  obtain ⟨root, hroot, hinside⟩ := ht
  have hall : ∀ s, ReflTransGen Part (.type root) s → ∃ u ∈ types, s = .type u := by
    intro s h
    induction h with
    | refl => exact ⟨root, hroots root hroot, rfl⟩
    | tail _ hpart ih =>
      obtain ⟨u, hu, rfl⟩ := ih
      cases hpart with
      | child hv => exact ⟨_, hclosed u hu _ hv, rfl⟩
  obtain ⟨u, hu, heq⟩ := hall _ hinside
  exact Subject.type.inj heq ▸ hu

theorem acyclic_of_rank (rank : Declared → Nat)
    (h : ∀ name d d', declared? outline name = some d → RefersTo outline d d' → rank d' < rank d) :
    Acyclic outline := by
  have hlower : ∀ d d', TransGen (RefersTo outline) d d' → (∃ name, declared? outline name = some d) →
      rank d' < rank d := by
    intro d d' hpath
    induction hpath with
    | single hstep =>
      rintro ⟨name, hd⟩
      exact h name _ _ hd hstep
    | tail hbefore hstep ih =>
      intro hd
      obtain ⟨_, -, hc⟩ := TransGen.tail'_iff.1 hbefore
      obtain ⟨_, _, hnames⟩ := hc
      obtain ⟨name, hname⟩ := hnames.declared
      exact (h name _ _ hname hstep).trans (ih hd)
  intro d hcycle
  obtain ⟨_, -, _, -, hnames⟩ := TransGen.tail'_iff.1 hcycle
  exact lt_irrefl _ (hlower d d hcycle hnames.declared)

def itemInterface : Interface := ⟨"Item", [], [⟨"title", false, some (.predefined "string"), false⟩]⟩

def shelfInterface : Interface :=
  ⟨"Props", [], [⟨"first", false, some (.named "Item"), false⟩,
    ⟨"rest", false, some (.array "Item[]" (.named "Item")), false⟩]⟩

def shelf : Outline :=
  ⟨[], [⟨0, false, .interface shelfInterface⟩, ⟨49, false, .interface itemInterface⟩]⟩

def shelfTypes : List TypeExpr :=
  [.named "Item", .array "Item[]" (.named "Item"), .predefined "string"]

theorem mem_shelfTypes {t : TypeExpr} (ht : HasType shelf t) : t ∈ shelfTypes := by
  refine mem_of_hasType ?_ ?_ ht
  · simp [annotations, shelf, annotationsOfBody, shelfInterface, itemInterface, shelfTypes]
  · simp [shelfTypes, children]

theorem legible_shelf : Legible shelf := by
  constructor
  · intro t u ht hu htext
    have hnodup : (shelfTypes.map TypeExpr.text).Nodup := by decide
    exact List.inj_on_of_nodup_map hnodup (mem_shelfTypes ht) (mem_shelfTypes hu) htext
  · intro t _ i ht _ htext
    have hfirst : ∀ u ∈ shelfTypes, u.text.toList.head? ≠ some 'i' := by decide
    refine hfirst t (mem_shelfTypes ht) ?_
    rw [htext, interfaceKey, String.toList_append]
    rfl

theorem declared_shelf {name : String} (h : declared? shelf name = some d) :
    d = .interface shelfInterface ∨ d = .interface itemInterface := by
  unfold declared? at h
  split at h
  · rename_i i hi
    obtain rfl := Option.some.inj h
    obtain ⟨-, declaration, hd, hbody⟩ := exists_of_interface? hi
    simp only [shelf, List.mem_cons, List.not_mem_nil, or_false] at hd
    rcases hd with rfl | rfl
    · exact .inl (congrArg Declared.interface (DeclarationBody.interface.inj hbody).symm)
    · exact .inr (congrArg Declared.interface (DeclarationBody.interface.inj hbody).symm)
  · obtain ⟨value, hvalue, rfl⟩ := Option.map_eq_some_iff.1 h
    obtain ⟨declaration, hd, hbody⟩ := exists_of_typeAlias? hvalue
    simp only [shelf, List.mem_cons, List.not_mem_nil, or_false] at hd
    rcases hd with rfl | rfl <;> cases hbody

theorem part_item (h : ReflTransGen Part (.interface itemInterface) s) :
    s = .interface itemInterface ∨ s = .type (.predefined "string") := by
  induction h with
  | refl => exact .inl rfl
  | tail _ hstep ih =>
    rcases ih with rfl | rfl
    · cases hstep with
      | member hp hu =>
        obtain rfl := List.mem_singleton.1 hp
        exact .inr (congrArg Subject.type (Option.some.inj hu).symm)
    · cases hstep with
      | child hu => cases hu

theorem acyclic_shelf : Acyclic shelf := by
  refine acyclic_of_rank (fun d => if d.subject.key = "interface Props" then 1 else 0) ?_
  rintro name d d' hd ⟨s, hpart, hnames⟩
  have hs : InFile shelf s := (inFile_declared hd).parts hpart
  cases hnames with
  | @base i j base hbase _ =>
    have hi : declared? shelf i.name = some (.interface i) := by
      rw [declared?, show shelf.interface? i.name = some i from hs]
    rcases declared_shelf hi with heq | heq <;> cases heq <;> cases hbase
  | @type t n _ hname hd' =>
    have ht : t ∈ shelfTypes := mem_shelfTypes hs
    simp only [shelfTypes, List.mem_cons, List.not_mem_nil, or_false] at ht
    rcases ht with rfl | rfl | rfl
    · obtain rfl := Option.some.inj hname
      obtain rfl : Declared.interface itemInterface = d' := Option.some.inj hd'
      rcases declared_shelf hd with rfl | rfl
      · decide
      · rcases part_item hpart with heq | heq <;> cases heq
    · cases hname
    · cases hname

theorem shelf_needs_no_guard :
    Legible shelf ∧ Acyclic shelf ∧ HasType shelf (.named "Item") ∧
      ∀ depth ≥ enoughDepth shelf ["Item"],
        resolve shelf depth [] true (.named "Item") =
            some (.object [("title", .primitive .string false)] [] true) ∧
          (unguarded shelf depth).type true (.named "Item") =
            some (.object [("title", .primitive .string false)] [] true) := by
  have hitem : HasType shelf (.named "Item") :=
    ⟨.named "Item", by simp [annotations, shelf, annotationsOfBody, shelfInterface], .refl⟩
  refine ⟨legible_shelf, acyclic_shelf, hitem, ?_⟩
  obtain ⟨schema, hschema⟩ :=
    (resolve_eq_unguarded_of_acyclic legible_shelf acyclic_shelf).1 _ hitem true
  have hvalue : resolve shelf (enoughDepth shelf ["Item"]) [] true (.named "Item") =
      some (.object [("title", .primitive .string false)] [] true) := by rfl
  obtain rfl := Option.some.inj ((hschema _ le_rfl).1.symm.trans hvalue)
  exact hschema

end BlockCheck.Props
