import BlockCheck.Proofs.Props.Marks
import BlockCheck.Proofs.Props.Unguarded

/-!
# Declarations that are met again

A file can be resolved with the names of the declarations on the way kept beside the guard. Where a
reference leads back to one of them, the marked schema has a mark. The guard knows nothing of names:
it stops at the text of a type alias, and at an interface, but what it puts there differs. The
schema of a file is its marked schema with the marks filled in, with anything or with an empty object.
-/

namespace BlockCheck.Props

open Source Relation

/-! ## The marked resolution -/

def Meaning.isDeclared : Meaning → Bool
  | .interface _ | .typeAlias _ => true
  | .special | .omitted _ _ | .picked _ _ | .partly _ | .list _ | .unknown => false

/-- The name of the declaration that a type is a reference to. -/
def referred? (outline : Outline) : TypeExpr → Option String
  | .named name => if (meaning outline name []).isDeclared then some name else none
  | .generic _ name arguments =>
    if (meaning outline name arguments).isDeclared then some name else none
  | _ => none

/-- The name of a declaration that is being resolved and that the type refers to. -/
def metAgain? (outline : Outline) (entered : List String) (t : TypeExpr) : Option String :=
  (referred? outline t).filter fun name => entered.contains name

/-- Only an interface can be met again by a text that is not on the way. -/
def mark (outline : Outline) (guard : Guard) (name : String) (t : TypeExpr) : String :=
  if (outline.interface? name).isSome && !guard.contains t.text then emptyMark else anyMark

/-- The guarded resolution with a mark wherever a type refers to one of the declarations that are
being resolved, which are kept by their names. -/
def marked (outline : Outline) : Nat → Guard → List String → Answers
  | 0, _, _ => ⟨fun _ _ => none, fun _ => none⟩
  | depth + 1, guard, entered =>
    { type := fun optional t =>
        match metAgain? outline entered t with
        | some name => some (.special (mark outline guard name t) optional)
        | none =>
          if guard.contains t.text then some (.any optional)
          else
            let entered := (referred? outline t).toList ++ entered
            (step outline (marked outline depth (t.text :: guard) entered)).type optional t
      interface := fun i =>
        let key := interfaceKey i.name
        if guard.contains key then some .empty
        else (step outline (marked outline depth (key :: guard) (i.name :: entered))).interface i }

def markedSchemaOfType (outline : Outline) (entered : List String) (t : TypeExpr) : Option Schema :=
  (marked outline (enoughDepth outline (typeTexts t)) [] entered).type false t

def markedSchemaOf? (outline : Outline) : Option Schema :=
  match outline.defaultFunction?.bind (·.parameter) with
  | some t => markedSchemaOfType outline [] t
  | none =>
    match outline.interface? "Props" with
    | some i =>
      ((marked outline (enoughDepth outline []) [] []).interface i).map (·.schema false)
    | none => (outline.typeAlias? "Props").bind (markedSchemaOfType outline ["Props"])

variable {outline : Outline} {guard : Guard} {entered : List String} {s s' : Subject}

/-! ## References -/

theorem meaning_of_isDeclared {name : String} {arguments : List TypeExpr}
    (h : (meaning outline name arguments).isDeclared) :
    (∃ i, outline.interface? name = some i ∧ meaning outline name arguments = .interface i) ∨
      ∃ value, outline.interface? name = none ∧ outline.typeAlias? name = some value ∧
        meaning outline name arguments = .typeAlias value := by
  unfold meaning at h ⊢
  split at h
  · cases h
  rename_i hspecial
  rw [if_neg hspecial]
  split at h <;> try cases h
  split at h
  · rename_i i hi
    exact .inl ⟨i, hi, rfl⟩
  · rename_i hi
    split at h
    · rename_i value hvalue
      exact .inr ⟨value, hi, hvalue, rfl⟩
    · cases h

theorem declared_of_referred? {t : TypeExpr} {name : String} (h : referred? outline t = some name) :
    (∃ i, outline.interface? name = some i ∧ asked outline (.type t) = [.interface i] ∧
      ∀ a optional, (step outline a).type optional t = (a.interface i).map (·.schema optional)) ∨
    ∃ value, outline.interface? name = none ∧ outline.typeAlias? name = some value ∧
      asked outline (.type t) = [.type value] ∧
      ∀ a optional, (step outline a).type optional t = a.type optional value := by
  obtain ⟨arguments, hdeclared, hasked, hstep⟩ : ∃ arguments,
      (meaning outline name arguments).isDeclared ∧
      asked outline (.type t) = askedByMeaning (meaning outline name arguments) ∧
      ∀ a optional, (step outline a).type optional t =
        ofMeaning a optional name (meaning outline name arguments) := by
    cases t with
    | named n =>
      obtain ⟨hdeclared, rfl⟩ : (meaning outline n []).isDeclared ∧ n = name := by
        simpa [referred?] using h
      exact ⟨[], hdeclared, rfl, fun _ _ => rfl⟩
    | generic _ n arguments =>
      obtain ⟨hdeclared, rfl⟩ : (meaning outline n arguments).isDeclared ∧ n = name := by
        simpa [referred?] using h
      exact ⟨arguments, hdeclared, rfl, fun _ _ => rfl⟩
    | _ => cases h
  rcases meaning_of_isDeclared hdeclared with ⟨i, hi, hmeaning⟩ | ⟨value, hi, hvalue, hmeaning⟩
  · rw [hmeaning] at hasked hstep
    exact .inl ⟨i, hi, hasked, hstep⟩
  · rw [hmeaning] at hasked hstep
    exact .inr ⟨value, hi, hvalue, hasked, hstep⟩

/-! ## Names and guard -/

/-- Whatever has been entered is the subject itself or has its key in the guard. -/
structure Tracks (outline : Outline) (guard : Guard) (entered : List String) (s : Subject) : Prop where
  found : ∀ i, s = .interface i → outline.interface? i.name = some i
  held : ∀ name ∈ entered, ∃ d, declared? outline name = some d ∧
    (d.subject = s ∨ d.subject.key ∈ guard)

theorem Tracks.start (h : ∀ i, s = .interface i → outline.interface? i.name = some i) :
    Tracks outline guard [] s :=
  ⟨h, fun _ hname => absurd hname List.not_mem_nil⟩

theorem found_of_asks (h : Asks outline s s') :
    ∀ i, s' = .interface i → outline.interface? i.name = some i := by
  rintro i rfl
  rcases h.part_or_names with hpart | ⟨d, hd, heq⟩
  · cases hpart
  · obtain ⟨name, hname⟩ := hd.declared
    have hfile : InFile outline d.subject := inFile_declared hname
    rw [← heq] at hfile
    exact hfile

theorem Tracks.ask (h : Tracks outline guard entered s) (hasks : Asks outline s s') :
    Tracks outline (s.key :: guard) entered s' := by
  refine ⟨found_of_asks hasks, fun name hname => ?_⟩
  obtain ⟨d, hd, heq | hkey⟩ := h.held name hname
  · exact ⟨d, hd, .inr (heq ▸ List.mem_cons_self)⟩
  · exact ⟨d, hd, .inr (List.mem_cons_of_mem _ hkey)⟩

theorem Tracks.enter (h : Tracks outline guard entered s) {name : String} {d : Declared}
    (hd : declared? outline name = some d) (hs : d.subject = s ∨ d.subject.key ∈ guard) :
    Tracks outline guard (name :: entered) s := by
  refine ⟨h.found, fun n hn => ?_⟩
  rcases List.mem_cons.1 hn with rfl | hn
  · exact ⟨d, hd, hs⟩
  · exact h.held n hn

theorem declared?_interface {name : String} {i : Interface} (h : outline.interface? name = some i) :
    declared? outline name = some (.interface i) := by
  rw [declared?, h]

theorem declared?_typeAlias {name : String} {value : TypeExpr} (hi : outline.interface? name = none)
    (h : outline.typeAlias? name = some value) :
    declared? outline name = some (.typeAlias name value) := by
  rw [declared?, hi, h, Option.map_some]

theorem Tracks.askType {t : TypeExpr} (h : Tracks outline guard entered (.type t))
    (hasks : Asks outline (.type t) s') :
    Tracks outline (t.text :: guard) ((referred? outline t).toList ++ entered) s' := by
  have hask := h.ask hasks
  cases hname : referred? outline t with
  | none => exact hask
  | some name =>
    rcases declared_of_referred? hname with ⟨i, hi, hasked, -⟩ | ⟨value, hi, hvalue, hasked, -⟩
    · rw [Asks, hasked] at hasks
      obtain rfl := List.mem_singleton.1 hasks
      exact hask.enter (declared?_interface hi) (.inl rfl)
    · rw [Asks, hasked] at hasks
      obtain rfl := List.mem_singleton.1 hasks
      exact hask.enter (declared?_typeAlias hi hvalue) (.inl rfl)

theorem Tracks.askInterface {i : Interface} (h : Tracks outline guard entered (.interface i))
    (hasks : Asks outline (.interface i) s') :
    Tracks outline (interfaceKey i.name :: guard) (i.name :: entered) s' :=
  (h.ask hasks).enter (declared?_interface (h.found i rfl)) (.inr List.mem_cons_self)

/-! ## What the guard puts at a mark -/

/-- Where a declaration is met again, whatever the resolution gives is what fills the mark. -/
theorem eq_fill_of_metAgain {t : TypeExpr} {name : String}
    (h : Tracks outline guard entered (.type t)) (hagain : metAgain? outline entered t = some name)
    {depth : Nat} {optional : Bool} {schema : Schema}
    (hschema : resolve outline depth guard optional t = some schema) :
    fill .emptyObject (.special (mark outline guard name t) optional) = schema := by
  obtain ⟨hreferred, hentered⟩ := Option.filter_eq_some_iff.1 hagain
  obtain ⟨d, hd, hheld⟩ := h.held name (List.contains_iff_mem.1 hentered)
  cases depth with
  | zero => cases hschema
  | succ depth =>
    by_cases htext : t.text ∈ guard
    · rw [resolve_of_mem htext] at hschema
      rw [mark, List.contains_iff_mem.2 htext, Bool.not_true, Bool.and_false, if_neg nofun,
        fill_anyMark]
      exact Option.some.inj hschema
    · rw [resolve_of_notMem htext] at hschema
      have hfree : guard.contains t.text = false := by simpa using htext
      rcases declared_of_referred? hreferred with ⟨i, hi, -, hstep⟩ | ⟨value, hi, hvalue, -, hstep⟩
      · -- An interface is cut off inside, where it is put together.
        obtain rfl := Option.some.inj ((declared?_interface hi).symm.trans hd)
        have hkey : interfaceKey i.name ∈ t.text :: guard := by
          rcases hheld with heq | hkey
          · cases heq
          · exact List.mem_cons_of_mem _ hkey
        rw [hstep] at hschema
        obtain ⟨members, hmembers, rfl⟩ := Option.map_eq_some_iff.1 hschema
        rw [mark, hi, hfree, Option.isSome_some, Bool.not_false, Bool.and_self, if_pos rfl,
          fill_emptyMark]
        cases depth with
        | zero => cases hmembers
        | succ depth =>
          obtain rfl := Option.some.inj ((interfaceMembers_of_mem hkey outline depth).symm.trans hmembers)
          rfl
      · -- The text of a type alias is in the guard, or is the text of the reference.
        obtain rfl := Option.some.inj ((declared?_typeAlias hi hvalue).symm.trans hd)
        have hkey : value.text ∈ t.text :: guard := by
          rcases hheld with heq | hkey
          · obtain rfl := Subject.type.inj heq
            exact List.mem_cons_self
          · exact List.mem_cons_of_mem _ hkey
        rw [hstep] at hschema
        rw [mark, hi, Option.isSome_none, Bool.false_and, if_neg nofun, fill_anyMark]
        cases depth with
        | zero => cases hschema
        | succ depth =>
          exact Option.some.inj ((resolve_of_mem hkey outline depth optional).symm.trans hschema)

theorem guarded_leAt_marked (depth : Nat) (h : Tracks outline guard entered s) :
    (guarded outline depth guard).LeAt ((marked outline depth guard entered).fill .emptyObject) s := by
  -- The guard and the names on the way grow side by side, and what ties them together is carried along.
  induction depth generalizing guard entered s with
  | zero => exact Answers.leAt_of_none (fun _ _ => rfl) fun _ => rfl
  | succ depth ih =>
    cases s with
    | type t =>
      intro optional schema hschema
      simp only [Answers.fill, marked]
      cases hagain : metAgain? outline entered t with
      | some name =>
        exact congrArg some (eq_fill_of_metAgain h hagain hschema)
      | none =>
        by_cases htext : t.text ∈ guard
        · have hcut := resolve_of_mem htext outline depth optional
          simp only [List.contains_iff_mem.2 htext, if_true, Option.map_some, fill_any]
          exact hcut.symm.trans hschema
        · have hstep := step_leAt (s := .type t) fun s' hs' => ih (h.askType hs')
          rw [step_fill] at hstep
          simp only [if_neg (mt List.contains_iff_mem.1 htext)]
          refine hstep optional schema ?_
          exact (resolve_of_notMem htext outline depth optional).symm.trans hschema
    | interface i =>
      intro members hmembers
      simp only [Answers.fill, marked]
      by_cases hkey : interfaceKey i.name ∈ guard
      · have hcut := interfaceMembers_of_mem hkey outline depth
        simp only [List.contains_iff_mem.2 hkey, if_true, Option.map_some]
        exact hcut.symm.trans hmembers
      · have hstep := step_leAt (s := .interface i) fun s' hs' => ih (h.askInterface hs')
        rw [step_fill] at hstep
        simp only [if_neg (mt List.contains_iff_mem.1 hkey)]
        refine hstep members ?_
        exact (interfaceMembers_of_notMem hkey outline depth).symm.trans hmembers

/-! ## Files -/

theorem markedSchemaOfType_eq {t : TypeExpr} (h : Tracks outline [] entered (.type t)) :
    (markedSchemaOfType outline entered t).map (fill .emptyObject) =
      some (schemaOfType outline t) := by
  have hdefined := guarded_definedAt_enoughDepth (s := .type t) (typeTexts t)
    (List.subset_append_left (typeTexts t) (declaredKeys outline))
  obtain ⟨schema, hschema⟩ := Option.isSome_iff_exists.1 (hdefined false)
  have hschema' : resolve outline (enoughDepth outline (typeTexts t)) [] false t = some schema := hschema
  rw [schemaOfType, hschema', Option.getD_some]
  exact guarded_leAt_marked _ h false schema hschema

theorem markedSchema_interface_eq {name : String} {i : Interface}
    (hi : outline.interface? name = some i) :
    (((marked outline (enoughDepth outline []) [] []).interface i).map (·.schema false)).map
      (fill .emptyObject) = some (schemaOfInterface outline i) := by
  have hdefined := guarded_definedAt_enoughDepth (s := .interface i) []
    (keysOf_interface_subset hi)
  obtain ⟨members, hmembers⟩ := Option.isSome_iff_exists.1 hdefined
  have hmembers' : interfaceMembers outline (enoughDepth outline []) [] i = some members := hmembers
  have htracks : Tracks outline [] [] (.interface i) :=
    .start fun j hj => Subject.interface.inj hj ▸ inFile_interface hi
  have hmarked := guarded_leAt_marked _ htracks members hmembers
  obtain ⟨found, hfound, rfl⟩ := Option.map_eq_some_iff.1 hmarked
  rw [schemaOfInterface, hmembers', hfound, Option.getD_some, Option.map_some, Option.map_some,
    fill_schema]

theorem schemaOf?_eq_fill (outline : Outline) :
    schemaOf? outline = (markedSchemaOf? outline).map (fill .emptyObject) := by
  unfold schemaOf? markedSchemaOf?
  cases outline.defaultFunction?.bind (·.parameter) with
  | some t => exact (markedSchemaOfType_eq (.start nofun)).symm
  | none =>
    cases hi : outline.interface? "Props" with
    | some i => exact (markedSchema_interface_eq hi).symm
    | none =>
      cases hvalue : outline.typeAlias? "Props" with
      | none => rfl
      | some value =>
        have htracks : Tracks outline [] ["Props"] (.type value) := by
          refine ⟨nofun, fun name hname => ?_⟩
          obtain rfl := List.mem_singleton.1 hname
          exact ⟨_, declared?_typeAlias hi hvalue, .inl rfl⟩
        exact (markedSchemaOfType_eq htracks).symm

/-! ## Where the fillings differ -/

/-- Some interface is met again by a text that is not on the way. -/
inductive HasEmptyMark : Schema → Prop
  | here {optional : Bool} : HasEmptyMark (.special emptyMark optional)
  | element {s : Schema} {optional : Bool} : HasEmptyMark s → HasEmptyMark (.array (some s) optional)
  | property {properties : List (String × Schema)} {ignored : List String} {optional : Bool}
      {p : String × Schema} : p ∈ properties → HasEmptyMark p.2 →
      HasEmptyMark (.object properties ignored optional)
  | member {members : List Schema} {optional : Bool} {s : Schema} : s ∈ members → HasEmptyMark s →
      HasEmptyMark (.union members optional)

theorem fill_eq_fill_iff (s : Schema) :
    fill .emptyObject s = fill .anything s ↔ ¬HasEmptyMark s := by
  induction s using Schema.induction with
  | primitive | any => exact iff_of_true rfl (by rintro ⟨⟩)
  | array element optional ih =>
    cases element with
    | none => exact iff_of_true rfl (by rintro ⟨⟩)
    | some s =>
      simp only [fill_array, Option.map_some, Schema.array.injEq, Option.some.injEq, and_true, ih s rfl]
      exact not_congr ⟨.element, fun h => by cases h with | element h => exact h⟩
  | object properties ignored optional ih =>
    simp only [fill_object, Schema.object.injEq, and_true, List.map_inj_left, Prod.mk.injEq, true_and]
    constructor
    · intro h hmark
      cases hmark with
      | property hp hmark => exact (ih _ hp).1 (h _ hp) hmark
    · exact fun h p hp => (ih p hp).2 fun hmark => h (.property hp hmark)
  | union members optional ih =>
    simp only [fill_union, Schema.union.injEq, and_true, List.map_inj_left]
    constructor
    · intro h hmark
      cases hmark with
      | member hs hmark => exact (ih _ hs).1 (h _ hs) hmark
    · exact fun h s hs => (ih s hs).2 fun hmark => h (.member hs hmark)
  | special tag optional =>
    have hmark : HasEmptyMark (.special tag optional) ↔ tag = emptyMark := by
      constructor
      · intro h
        cases h
        rfl
      · rintro rfl
        exact .here
    rw [hmark, fill, fill]
    -- The two fillings differ at the second mark only.
    by_cases hany : tag = anyMark
    · subst hany
      exact iff_of_true rfl (by decide)
    by_cases hempty : tag = emptyMark
    · subst hempty
      exact iff_of_false (by rintro ⟨⟩) fun h => h rfl
    · refine iff_of_true ?_ hempty
      rw [if_neg hany, if_neg hany, if_neg hempty, if_neg hempty]

/-! ## What is reported at a mark -/

/-- Two values that differ at marks only: in any way where anything may stand, and below the keys of
an object where an empty object is expected. -/
inductive SameBeside : Schema → Json → Json → Prop
  | same {s : Schema} {v : Json} : SameBeside s v v
  | anyMark {optional : Bool} {v v' : Json} : SameBeside (.special anyMark optional) v v'
  | emptyMark {optional : Bool} {members members' : List (String × Json)} :
      Record.keys members = Record.keys members' →
      SameBeside (.special emptyMark optional) (.object members) (.object members')
  | items {s : Schema} {optional : Bool} {items items' : List Json} :
      items.length = items'.length →
      (∀ (n : Nat) v v', items[n]? = some v → items'[n]? = some v' → SameBeside s v v') →
      SameBeside (.array (some s) optional) (.array items) (.array items')
  | members {properties : List (String × Schema)} {ignored : List String} {optional : Bool}
      {members members' : List (String × Json)} : Record.keys members = Record.keys members' →
      (∀ p ∈ properties, ∀ v v', members.lookup p.1 = some v → members'.lookup p.1 = some v' →
        SameBeside p.2 v v') →
      SameBeside (.object properties ignored optional) (.object members) (.object members')
  | union {members : List Schema} {optional : Bool} {v v' : Json} :
      (∀ s ∈ members, SameBeside s v v') → SameBeside (.union members optional) v v'

theorem unknownFindings_congr {mode : Mode} {properties : List (String × Schema)}
    {ignored : List String} {members members' : List (String × Json)}
    (h : Record.keys members = Record.keys members') :
    Schema.unknownFindings mode properties ignored members =
      Schema.unknownFindings mode properties ignored members' := by
  cases mode with
  | lenient => rfl
  | strict => rw [Schema.unknownFindings_strict, Schema.unknownFindings_strict, h]

theorem check_congr {mode : Mode} {s : Schema} {key : String} {members members' : List (String × Json)}
    (hkeys : Record.keys members = Record.keys members')
    (h : ∀ v v', members.lookup key = some v → members'.lookup key = some v' →
      s.findings mode v = s.findings mode v') :
    s.check mode (members.lookup key) = s.check mode (members'.lookup key) := by
  have hsome : (members.lookup key).isSome = (members'.lookup key).isSome := by
    rw [Bool.eq_iff_iff, Record.isSome_lookup_iff, Record.isSome_lookup_iff, hkeys]
  cases hv : members.lookup key with
  | none =>
    rw [hv] at hsome
    rw [Option.isSome_eq_false_iff.1 hsome.symm |> Option.isNone_iff_eq_none.1]
  | some v =>
    rw [hv] at hsome
    obtain ⟨v', hv'⟩ := Option.isSome_iff_exists.1 hsome.symm
    rw [hv']
    exact h v v' hv hv'

theorem findings_fill_congr (mode : Mode) (s : Schema) :
    ∀ {v v'}, SameBeside s v v' →
      (fill .emptyObject s).findings mode v = (fill .emptyObject s).findings mode v' := by
  induction s using Schema.induction with
  | primitive | any =>
    rintro v v' ⟨⟩
    rfl
  | array element optional ih =>
    intro v v' h
    cases h with
    | same => rfl
    | @items s _ items items' hlength h =>
      simp only [fill_array, Option.map_some, Schema.findings, Schema.elementFindings_some,
        List.flatMap_def]
      -- The items need not be the same, so the lists are compared place by place.
      refine congrArg List.flatten (List.ext_getElem? fun n => ?_)
      simp only [List.getElem?_map, List.getElem?_zipIdx, Option.map_map]
      cases hv : items[n]? with
      | none =>
        rw [List.getElem?_eq_none_iff, hlength, ← List.getElem?_eq_none_iff] at hv
        rw [hv]
      | some v =>
        obtain ⟨v', hv'⟩ : ∃ v', items'[n]? = some v' := by
          rw [← Option.isSome_iff_exists, isSome_getElem?, ← hlength]
          exact (List.getElem?_eq_some_iff.1 hv).1
        simp [hv', ih s rfl (h n v v' hv hv')]
  | object properties ignored optional ih =>
    intro v v' h
    cases h with
    | same => rfl
    | @members _ _ _ members members' hkeys h =>
      simp only [fill_object, Schema.findings, Schema.propertyFindings_eq, unknownFindings_congr hkeys,
        List.flatMap_map]
      refine congrArg (· ++ _) (List.flatMap_congr fun p hp => ?_)
      rw [check_congr hkeys fun v v' hv hv' => ih p hp (h p hp v v' hv hv')]
  | union members optional ih =>
    intro v v' h
    cases h with
    | same => rfl
    | union h =>
      have haccepts : Schema.anyAccepts mode (members.map (fill .emptyObject)) v =
          Schema.anyAccepts mode (members.map (fill .emptyObject)) v' := by
        rw [Bool.eq_iff_iff, Schema.anyAccepts_eq, Schema.anyAccepts_eq, List.any_map, List.any_map,
          List.any_eq_true, List.any_eq_true]
        refine exists_congr fun s => and_congr_right fun hs => ?_
        rw [Function.comp_apply, Function.comp_apply, ih s hs (h s hs)]
      simp only [fill_union, Schema.findings, haccepts]
  | special tag optional =>
    intro v v' h
    cases h with
    | same => rfl
    | anyMark => rfl
    | emptyMark hkeys =>
      simp only [fill_emptyMark, Filling.schema, Schema.findings, Schema.propertyFindings,
        unknownFindings_congr hkeys]

/-- The schema of a file accepts anything, with the flag of its position, wherever a declaration that
is being resolved is met again, apart from interfaces that are met again by another text: these
accept objects without properties. Where that does not happen, and only there, every mark is filled
with anything. What stands at a mark of the first kind makes no difference to what is reported, and
what stands below the keys of an object at one of the second kind makes none, in either mode. -/
theorem schemaOf?_of_marks (outline : Outline) :
    schemaOf? outline = (markedSchemaOf? outline).map (fill .emptyObject) ∧
    (schemaOf? outline = (markedSchemaOf? outline).map (fill .anything) ↔
      ∀ s ∈ markedSchemaOf? outline, ¬HasEmptyMark s) ∧
    ∀ s ∈ markedSchemaOf? outline, ∀ mode base v v', SameBeside s v v' →
      (fill .emptyObject s).validate mode base (some v) =
        (fill .emptyObject s).validate mode base (some v') := by
  refine ⟨schemaOf?_eq_fill outline, ?_, fun s _ mode base v v' h => ?_⟩
  · rw [schemaOf?_eq_fill]
    cases markedSchemaOf? outline with
    | none => exact iff_of_true rfl (by rintro _ ⟨⟩)
    | some s => simpa using fill_eq_fill_iff s
  · exact congrArg (List.map (Finding.issue base)) (findings_fill_congr mode s h)

/-! ## An interface that is met again -/

def chain : Outline :=
  ⟨[], [⟨0, false, .interface ⟨"Props", [], [⟨"child", false, some (.named "Props"), false⟩]⟩⟩]⟩

/-- The child is met again as `Props`, which is no text on the way, and so a child with a child of its
own is reported. -/
theorem chain_child_not_anything :
    markedSchemaOf? chain = some (.object [("child", .special emptyMark false)] [] false) ∧
    schemaOf? chain = some (.object [("child", .object [] [] false)] [] false) ∧
    schemaOf? chain ≠ (markedSchemaOf? chain).map (fill .anything) ∧
    ∀ s ∈ schemaOf? chain,
      s.validate .strict "" (some (.object [("child", .object [("child", .null)])])) =
        [⟨"child.child", .unknownProperty⟩] := by
  have hmarked : markedSchemaOf? chain =
      some (.object [("child", .special emptyMark false)] [] false) := rfl
  have hschema : schemaOf? chain =
      some (.object [("child", .object [] [] false)] [] false) := rfl
  refine ⟨hmarked, hschema, ?_, ?_⟩
  · rw [hmarked, hschema]
    simp [Filling.schema]
  · rw [hschema]
    rintro s ⟨⟩
    decide

end BlockCheck.Props
