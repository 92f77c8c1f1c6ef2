import BlockCheck.Proofs.Props.Depth

/-!
# How deep a resolution goes

The questions that are open at one time have different keys, except that the last of them may come back to
one. A key is the text of a type expression or the name of an interface, and all of these stand in the
declarations of the file or where the resolution starts. So their number limits how deep questions are
nested, and with that much depth no resolution runs out, whatever way the declarations refer to each other.
-/

namespace BlockCheck.Props

open Source Relation

variable {outline : Outline} {s s' : Subject} {guard : Guard}

/-! ## Texts and names -/

def declaredTexts (outline : Outline) : List String :=
  outline.declarations.flatMap fun d =>
    match d.body with
    | .interface i => typeTextsOfProperties i.properties
    | .typeAlias _ value => typeTexts value
    | .function _ _ | .variable _ _ => []

def interfaceNames (outline : Outline) : List String :=
  outline.declarations.filterMap fun d =>
    match d.body with
    | .interface i => some i.name
    | .typeAlias _ _ | .function _ _ | .variable _ _ => none

/-- One more than the number of different texts and of different names, with those of the start. -/
def nestingLimit (outline : Outline) (texts names : List String) : Nat :=
  (texts ++ declaredTexts outline).toFinset.card + (names ++ interfaceNames outline).toFinset.card + 1

def Subject.texts : Subject → List String
  | .type t => typeTexts t
  | .interface i => typeTextsOfProperties i.properties

def Subject.names : Subject → List String
  | .type _ => []
  | .interface i => [i.name]

theorem nestingLimit_le {texts texts' names names' : List String}
    (htexts : texts ⊆ texts' ++ declaredTexts outline) (hnames : names ⊆ names' ++ interfaceNames outline) :
    nestingLimit outline texts names ≤ nestingLimit outline texts' names' := by
  have hcard {start start' declared : List String} (h : start ⊆ start' ++ declared) :
      (start ++ declared).toFinset.card ≤ (start' ++ declared).toFinset.card := by
    refine Finset.card_le_card fun key hkey => ?_
    rw [List.mem_toFinset] at hkey ⊢
    exact List.append_subset.2 ⟨h, List.subset_append_right _ _⟩ hkey
  exact Nat.succ_le_succ (Nat.add_le_add (hcard htexts) (hcard hnames))

theorem nestingLimit_of_subset {texts names : List String} (htexts : texts ⊆ declaredTexts outline)
    (hnames : names ⊆ interfaceNames outline) :
    nestingLimit outline texts names = nestingLimit outline [] [] :=
  Nat.le_antisymm (nestingLimit_le htexts hnames)
    (nestingLimit_le (List.nil_subset _) (List.nil_subset _))

theorem subset_of_interface? {name : String} {i : Interface} (h : outline.interface? name = some i) :
    (Subject.interface i).texts ⊆ declaredTexts outline ∧
      (Subject.interface i).names ⊆ interfaceNames outline := by
  obtain ⟨-, d, hd, hbody⟩ := exists_of_interface? h
  refine ⟨fun text htext => List.mem_flatMap.2 ⟨d, hd, by rw [hbody]; exact htext⟩, ?_⟩
  intro key hkey
  rw [List.mem_singleton.1 hkey]
  exact List.mem_filterMap.2 ⟨d, hd, by rw [hbody]⟩

theorem subset_of_typeAlias? {name : String} {value : TypeExpr}
    (h : outline.typeAlias? name = some value) :
    (Subject.type value).texts ⊆ declaredTexts outline := by
  obtain ⟨d, hd, hbody⟩ := exists_of_typeAlias? h
  exact fun text htext => List.mem_flatMap.2 ⟨d, hd, by rw [hbody]; exact htext⟩

/-! ## The keys -/

def metKeys (outline : Outline) (texts names : List String) : Finset String :=
  (texts ++ declaredTexts outline).toFinset ∪
    (names ++ interfaceNames outline).toFinset.image interfaceKey

theorem card_metKeys_lt (outline : Outline) (texts names : List String) :
    (metKeys outline texts names).card < nestingLimit outline texts names := by
  refine Nat.lt_succ_of_le ((Finset.card_union_le _ _).trans ?_)
  exact Nat.add_le_add_left Finset.card_image_le _

theorem mem_metKeys_of_declaredKeys {key : String} (texts names : List String)
    (h : key ∈ declaredKeys outline) : key ∈ metKeys outline texts names := by
  obtain ⟨d, hd, hkey⟩ := List.mem_flatMap.1 h
  have htext (h : key ∈ declaredTexts outline) : key ∈ metKeys outline texts names :=
    Finset.mem_union_left _ (List.mem_toFinset.2 (List.mem_append_right _ h))
  cases hbody : d.body with
  | «interface» i =>
    rw [hbody] at hkey
    rcases List.mem_cons.1 hkey with rfl | hkey
    · have hname : i.name ∈ interfaceNames outline := List.mem_filterMap.2 ⟨d, hd, by rw [hbody]⟩
      refine Finset.mem_union_right _ (Finset.mem_image_of_mem _ ?_)
      exact List.mem_toFinset.2 (List.mem_append_right _ hname)
    · exact htext (List.mem_flatMap.2 ⟨d, hd, by rw [hbody]; exact hkey⟩)
  | typeAlias name value =>
    rw [hbody] at hkey
    exact htext (List.mem_flatMap.2 ⟨d, hd, by rw [hbody]; exact hkey⟩)
  | function _ _ | «variable» _ _ =>
    rw [hbody] at hkey
    cases hkey

theorem mem_metKeys_of_start {key : String} (h : key ∈ keysOf s) :
    key ∈ metKeys outline s.texts s.names := by
  have htext (h : key ∈ s.texts) : key ∈ metKeys outline s.texts s.names :=
    Finset.mem_union_left _ (List.mem_toFinset.2 (List.mem_append_left _ h))
  cases s with
  | type t => exact htext h
  | interface i =>
    rcases List.mem_cons.1 h with rfl | h
    · exact Finset.mem_union_right _ (Finset.mem_image_of_mem _ (by simp [Subject.names]))
    · exact htext h

theorem key_mem_metKeys (h : ReflTransGen (Asks outline) s s') :
    s'.key ∈ metKeys outline s.texts s.names := by
  have hmet := keysOf_subset_of_asksAll (List.subset_append_left (keysOf s) _) h (key_mem_keysOf s')
  rcases List.mem_append.1 hmet with hkey | hkey
  · exact mem_metKeys_of_start hkey
  · exact mem_metKeys_of_declaredKeys _ _ hkey

/-! ## Open questions -/

/-- A question with what is being resolved when it is asked. -/
structure Question where
  guard : Guard
  subject : Subject

def Opens (outline : Outline) (q q' : Question) : Prop :=
  q.subject.key ∉ q.guard ∧ Asks outline q.subject q'.subject ∧ q'.guard = q.subject.key :: q.guard

theorem length_le_of_isChain {keys : Finset String} {q : Question} {rest : List Question}
    (hkeys : ∀ s, ReflTransGen (Asks outline) q.subject s → s.key ∈ keys)
    (hchain : (q :: rest).IsChain (Opens outline)) :
    (q :: rest).length ≤ (keys.filter (· ∉ q.guard)).card + 1 := by
  induction rest generalizing q with
  | nil => exact Nat.le_add_left 1 _
  | cons q' rest ih =>
    obtain ⟨⟨hfree, hasks, hguard⟩, hrest⟩ := List.isChain_cons_cons.1 hchain
    have hshorter := ih (fun s hs => hkeys s (.head hasks hs)) hrest
    rw [hguard] at hshorter
    have hlt := card_filter_notMem_cons_lt (hkeys q.subject .refl) hfree
    rw [List.length_cons]
    omega

theorem length_le_nestingLimit {q : Question} {rest : List Question}
    (hchain : (q :: rest).IsChain (Opens outline)) :
    (q :: rest).length ≤ nestingLimit outline q.subject.texts q.subject.names := by
  have hlength := length_le_of_isChain (fun s hs => key_mem_metKeys hs) hchain
  have hfilter := Finset.card_filter_le (metKeys outline q.subject.texts q.subject.names) (· ∉ q.guard)
  have hlimit := card_metKeys_lt outline q.subject.texts q.subject.names
  omega

/-! ## Enough depth -/

def SettledFrom {α : Type} (answer : Nat → Option α) (depth : Nat) : Prop :=
  ∃ a, ∀ more ≥ depth, answer more = some a

theorem settledFrom_of_within {α : Type} {answer : Nat → Option α} {depth : Nat}
    (hsome : (answer depth).isSome) (h : ∀ more ≥ depth, Within (answer depth) (answer more)) :
    SettledFrom answer depth := by
  obtain ⟨a, ha⟩ := Option.isSome_iff_exists.1 hsome
  exact ⟨a, fun more hmore => h more hmore a ha⟩

theorem guarded_definedAt_nestingLimit (guard : Guard) {texts names : List String}
    (htexts : s.texts ⊆ texts ++ declaredTexts outline)
    (hnames : s.names ⊆ names ++ interfaceNames outline) :
    (guarded outline (nestingLimit outline texts names) guard).DefinedAt s := by
  refine guarded_definedAt (metKeys outline s.texts s.names) (fun _ hs => key_mem_metKeys hs) ?_
  have hlimit := card_metKeys_lt outline s.texts s.names
  have hle := nestingLimit_le htexts hnames
  have hfilter := Finset.card_filter_le (metKeys outline s.texts s.names) (· ∉ guard)
  omega

section Settled

variable (outline guard)

theorem settledFrom_resolve (optional : Bool) (t : TypeExpr) :
    SettledFrom (fun depth => resolve outline depth guard optional t)
      (nestingLimit outline (typeTexts t) []) := by
  have hdefined : (guarded outline (nestingLimit outline (typeTexts t) []) guard).DefinedAt (.type t) :=
    guarded_definedAt_nestingLimit guard (List.subset_append_left _ _) (List.nil_subset _)
  exact settledFrom_of_within (hdefined optional) fun more hmore =>
    guarded_leAt hmore outline guard (.type t) optional

theorem settledFrom_interfaceMembers (i : Interface) :
    SettledFrom (fun depth => interfaceMembers outline depth guard i)
      (nestingLimit outline (typeTextsOfProperties i.properties) [i.name]) := by
  have hdefined := guarded_definedAt_nestingLimit (s := .interface i) guard
    (List.subset_append_left _ (declaredTexts outline))
    (List.subset_append_left _ (interfaceNames outline))
  exact settledFrom_of_within hdefined fun more hmore =>
    guarded_leAt hmore outline guard (.interface i)

theorem settledFrom_addMembers (members : Members) (properties : List Property) :
    SettledFrom (fun depth => addMembers (guarded outline depth guard).type members properties)
      (nestingLimit outline (typeTextsOfProperties properties) []) := by
  refine settledFrom_of_within (isSome_addMembers members fun s hs => ?_) fun more hmore => ?_
  · obtain ⟨p, hp, t, ht, rfl⟩ := mem_askedByMembers hs
    exact guarded_definedAt_nestingLimit guard
      (List.subset_append_of_subset_left _ (typeTexts_subset_of_property hp ht)) (List.nil_subset _)
  · exact addMembers_within fun s _ => guarded_leAt hmore outline guard s

theorem settledFrom_reference (optional : Bool) (name : String) (arguments : List TypeExpr) :
    SettledFrom (fun depth => reference outline (guarded outline depth guard).type
        (guarded outline depth guard).interface optional name arguments)
      (nestingLimit outline (typeTextsOfList arguments) []) := by
  simp only [reference_eq]
  refine settledFrom_of_within (isSome_ofMeaning (fun s hs => ?_) optional name) fun more hmore => ?_
  · rcases mem_askedByMeaning hs with ⟨t, ht, rfl⟩ | ⟨i, hi, rfl⟩ | ⟨value, -, hvalue, rfl⟩
    · exact guarded_definedAt_nestingLimit guard
        (List.subset_append_of_subset_left _ (typeTexts_subset_of_mem ht)) (List.nil_subset _)
    · obtain ⟨htexts, hnames⟩ := subset_of_interface? hi
      exact guarded_definedAt_nestingLimit guard
        (List.subset_append_of_subset_right _ htexts) (List.subset_append_of_subset_right _ hnames)
    · exact guarded_definedAt_nestingLimit guard
        (List.subset_append_of_subset_right _ (subset_of_typeAlias? hvalue)) (List.nil_subset _)
  · exact ofMeaning_within (fun s _ => guarded_leAt hmore outline guard s) optional name

end Settled

theorem resolve_eq_schemaOfType (outline : Outline) (t : TypeExpr) {depth : Nat}
    (hdepth : nestingLimit outline (typeTexts t) [] ≤ depth) :
    resolve outline depth [] false t = some (schemaOfType outline t) := by
  obtain ⟨s, hs⟩ := settledFrom_resolve outline [] false t
  have hdefined : (guarded outline (enoughDepth outline (typeTexts t)) []).DefinedAt (.type t) :=
    guarded_definedAt_enoughDepth (typeTexts t) (List.subset_append_left _ _)
  obtain ⟨s', hs'⟩ := Option.isSome_iff_exists.1 (hdefined false)
  have hdeeper := guarded_leAt (Nat.le_add_left (enoughDepth outline (typeTexts t)) depth) outline []
    (.type t) false s' hs'
  have hsame : some s = some s' := (hs _ (Nat.le_add_right_of_le hdepth)).symm.trans hdeeper
  have hschema : schemaOfType outline t = s' := congrArg (·.getD (.any false)) hs'
  exact (hs depth hdepth).trans (hsame.trans (congrArg some hschema.symm))

/-- At the limit, and from there on, every resolution gives its answer, and no more questions are open at
one time. The limit is that of the file where the resolution starts in a declaration. -/
theorem settledFrom_nestingLimit (outline : Outline) (guard : Guard) :
    (∀ optional t, SettledFrom (fun depth => resolve outline depth guard optional t)
      (nestingLimit outline (typeTexts t) [])) ∧
    (∀ i, SettledFrom (fun depth => interfaceMembers outline depth guard i)
      (nestingLimit outline (typeTextsOfProperties i.properties) [i.name])) ∧
    (∀ members properties,
      SettledFrom (fun depth => addMembers (resolve outline depth guard) members properties)
        (nestingLimit outline (typeTextsOfProperties properties) [])) ∧
    (∀ optional name arguments,
      SettledFrom (fun depth => reference outline (resolve outline depth guard)
          (interfaceMembers outline depth guard) optional name arguments)
        (nestingLimit outline (typeTextsOfList arguments) [])) ∧
    (∀ t, ∀ depth ≥ nestingLimit outline (typeTexts t) [],
      resolve outline depth [] false t = some (schemaOfType outline t)) ∧
    (∀ q rest, (q :: rest).IsChain (Opens outline) →
      (q :: rest).length ≤ nestingLimit outline q.subject.texts q.subject.names) ∧
    ∀ texts names, texts ⊆ declaredTexts outline → names ⊆ interfaceNames outline →
      nestingLimit outline texts names = nestingLimit outline [] [] :=
  ⟨settledFrom_resolve outline guard, settledFrom_interfaceMembers outline guard,
    settledFrom_addMembers outline guard, settledFrom_reference outline guard,
    fun t _ hdepth => resolve_eq_schemaOfType outline t hdepth,
    fun _ _ hchain => length_le_nestingLimit hchain,
    fun _ _ htexts hnames => nestingLimit_of_subset htexts hnames⟩

/-! ## An interface with a member of its own type -/

def boxInterface : Interface := ⟨"Box", [], [⟨"content", false, some (.named "Box"), false⟩]⟩

def boxes : Outline := ⟨[], [⟨0, false, .interface boxInterface⟩]⟩

/-- The last question is asked while the same one is open. -/
def boxQuestions : List Question :=
  [⟨["Box"], .interface boxInterface⟩, ⟨["interface Box", "Box"], .type (.named "Box")⟩]

theorem nestingLimit_boxes :
    nestingLimit boxes ["Box"] [] = 3 ∧
      (⟨[], .type (.named "Box")⟩ :: boxQuestions).IsChain (Opens boxes) ∧
      (⟨[], .type (.named "Box")⟩ :: boxQuestions).length ≤ nestingLimit boxes ["Box"] [] ∧
      resolve boxes 3 [] false (.named "Box") = some (schemaOfType boxes (.named "Box")) ∧
      resolve boxes 2 [] false (.named "Box") = none := by
  have hlimit : nestingLimit boxes ["Box"] [] = 3 := by decide
  have hchain : (⟨[], .type (.named "Box")⟩ :: boxQuestions).IsChain (Opens boxes) := by
    refine .cons_cons ⟨by simp, ?_, rfl⟩ (.cons_cons ⟨by decide, ?_, rfl⟩ (.singleton _))
    · exact List.mem_singleton.2 rfl
    · exact List.mem_singleton.2 rfl
  obtain ⟨-, -, -, -, hanswer, hlength, -⟩ := settledFrom_nestingLimit boxes []
  exact ⟨hlimit, hchain, hlength _ _ hchain, hanswer _ 3 hlimit.le, rfl⟩

end BlockCheck.Props
