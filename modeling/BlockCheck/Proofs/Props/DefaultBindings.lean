import BlockCheck.Proofs.Props.Trails

/-!
# What a file exports as its default

A name that is exported as the default is looked up among all declarations of the file, so a nested one that
stands in front of the top-level one takes its place. Of a specifier only the name counts under which it
exports, so the default of the other module is passed on whichever of its bindings the specifier takes.
-/

namespace BlockCheck

namespace Source

variable {name : String} {markup : Bool} {text : String} {outline : Outline}

/-! ## Declarations of a name -/

/-- What the declaration binds the name to, if it does: a function or something else. -/
def Declaration.bound? (name : String) (d : Declaration) : Option (Option Function) :=
  match d.body with
  | .function n f => if n = name then some (some f) else none
  | .variable n value =>
    if n = name then
      match value with
      | some (.function f) => some (some f)
      | _ => some none
    else none
  | _ => none

namespace Outline

/-- The function that the module binds the name to at its top level. -/
def moduleFunction? (outline : Outline) (name : String) : Option Function :=
  ((outline.declarations.filter (!·.nested)).findSome? (·.bound? name)).join

def defaultName? (outline : Outline) : Option String :=
  (outline.exports.findSome? fun
    | .default (.function _) => some none
    | .default (.name name) => some (some name)
    | _ => none).join

/-- Every nested declaration of the name comes behind one at the top level. -/
def TopFirst (outline : Outline) (name : String) : Prop :=
  ∀ d ∈ outline.declarations, d.nested = true → (d.bound? name).isSome = true →
    ∃ e ∈ outline.declarations, e.nested = false ∧ (e.bound? name).isSome = true ∧ e.place < d.place

/-- A nested declaration of the name comes in front of all those at the top level. -/
def NestedFirst (outline : Outline) (name : String) : Prop :=
  ∃ d ∈ outline.declarations, d.nested = true ∧ (d.bound? name).isSome = true ∧
    ∀ e ∈ outline.declarations, e.nested = false → (e.bound? name).isSome = true → d.place < e.place

def InOrder (outline : Outline) : Prop := outline.declarations.Pairwise fun d e => d.place ≤ e.place

/-- The declarations of a text in the order in which they are read to the end, the last one first. -/
def declared (markup : Bool) (text : String) : List Declaration :=
  let source := withoutInterpreter text.toList
  match (statements (Grammar.ofDepth markup (2 * source.length + 2))).run (Cursor.atStart source) with
  | some (_, cursor) => cursor.declared
  | none => []

theorem declarations_ofText (markup : Bool) (text : String) :
    (ofText markup text).declarations = (declared markup text).mergeSort fun a b => a.place ≤ b.place := by
  unfold ofText declared
  dsimp only
  generalize (statements _).run (Cursor.atStart _) = result
  cases result with
  | none => exact List.mergeSort_nil.symm
  | some last => rfl

theorem mem_declarations_ofText {d : Declaration} :
    d ∈ (ofText markup text).declarations ↔ d ∈ declared markup text := by
  rw [declarations_ofText, List.mem_mergeSort]

theorem inOrder_ofText (markup : Bool) (text : String) : (ofText markup text).InOrder := by
  have hsorted := @List.pairwise_mergeSort _ (fun a b : Declaration => decide (a.place ≤ b.place))
    (fun a b c hab hbc => by simp only [decide_eq_true_eq] at *; omega)
    (fun a b => by simp only [Bool.or_eq_true, decide_eq_true_eq]; omega) (declared markup text)
  rw [InOrder, declarations_ofText]
  exact hsorted.imp fun h => of_decide_eq_true h

theorem function?_eq (outline : Outline) (name : String) :
    outline.function? name = (outline.declarations.findSome? (·.bound? name)).join := rfl

theorem defaultFunction?_of_name (h : outline.defaultName? = some name) :
    outline.defaultFunction? = outline.function? name := by
  obtain ⟨exports, declarations⟩ := outline
  unfold defaultName? at h
  unfold defaultFunction?
  dsimp only at h ⊢
  induction exports with
  | nil => cases h
  | cons e rest ih =>
    rw [List.findSome?_cons] at h ⊢
    rcases e with ⟨specifiers, source⟩ | ⟨f | n | _⟩
    · exact ih h
    · cases h
    · cases h
      rfl
    · exact ih h

theorem exists_first {found : Option Function} (hsorted : outline.InOrder)
    (h : outline.declarations.findSome? (·.bound? name) = some found) :
    ∃ before d after, outline.declarations = before ++ d :: after ∧ d.bound? name = some found ∧
      (∀ e ∈ before, e.bound? name = none) ∧
        ∀ e ∈ outline.declarations, (e.bound? name).isSome = true → d.place ≤ e.place := by
  obtain ⟨before, d, after, hsplit, hbound, hbefore⟩ := List.findSome?_eq_some_iff.1 h
  refine ⟨before, d, after, hsplit, hbound, hbefore, fun e he hsome => ?_⟩
  unfold InOrder at hsorted
  rw [hsplit] at hsorted he
  rcases List.mem_append.1 he with he | he
  · simp [hbefore e he] at hsome
  · rcases List.mem_cons.1 he with rfl | he
    · exact Nat.le_refl _
    · exact List.rel_of_pairwise_cons (List.pairwise_append.1 hsorted).2.1 he

theorem function?_of_topFirst (hsorted : outline.InOrder) (h : outline.TopFirst name) :
    outline.function? name = outline.moduleFunction? name := by
  rw [function?_eq, moduleFunction?]
  refine congrArg Option.join ?_
  cases hfound : outline.declarations.findSome? (·.bound? name) with
  | none =>
    rw [List.findSome?_eq_none_iff] at hfound
    exact (List.findSome?_eq_none_iff.2 fun d hd => hfound d (List.mem_of_mem_filter hd)).symm
  | some found =>
    obtain ⟨before, d, after, hsplit, hbound, hbefore, hfirst⟩ := exists_first hsorted hfound
    have htop : d.nested = false := by
      refine Bool.eq_false_iff.2 fun hnested => ?_
      obtain ⟨e, he, -, hsome, hlt⟩ := h d (by simp [hsplit]) hnested (by simp [hbound])
      exact Nat.not_le_of_lt hlt (hfirst e he hsome)
    refine (List.findSome?_eq_some_iff.2 ⟨before.filter (!·.nested), d, after.filter (!·.nested), ?_, hbound,
      fun e he => hbefore e (List.mem_of_mem_filter he)⟩).symm
    rw [hsplit, List.filter_append, List.filter_cons_of_pos (by simp [htop])]

theorem function?_of_nestedFirst (hsorted : outline.InOrder) (h : outline.NestedFirst name) :
    ∃ d ∈ outline.declarations, d.nested = true ∧ d.bound? name = some (outline.function? name) := by
  obtain ⟨d, hd, hnested, hsome, hfront⟩ := h
  cases hfound : outline.declarations.findSome? (·.bound? name) with
  | none => simp [List.findSome?_eq_none_iff.1 hfound d hd] at hsome
  | some found =>
    obtain ⟨before, e, after, hsplit, hbound, -, hfirst⟩ := exists_first hsorted hfound
    have he : e ∈ outline.declarations := by simp [hsplit]
    refine ⟨e, he, ?_, by rw [hbound, function?_eq, hfound, Option.join_some]⟩
    -- A declaration at the top level comes behind the nested one, so it is not the first.
    refine Bool.not_eq_false _ ▸ fun htop => ?_
    exact Nat.not_le_of_lt (hfront e he htop (by simp [hbound])) (hfirst d hd hsome)

theorem exists_of_moduleFunction? {f : Function} (h : outline.moduleFunction? name = some f) :
    ∃ d ∈ outline.declarations, d.nested = false ∧ d.bound? name = some (some f) := by
  obtain ⟨d, hd, hbound⟩ := List.exists_of_findSome?_eq_some (Option.join_eq_some_iff.1 h)
  obtain ⟨hmem, htop⟩ := List.mem_filter.1 hd
  exact ⟨d, hmem, by simpa using htop, hbound⟩

end Outline

/-! ## Specifiers -/

def NoBlank (s : List Char) : Prop := ∀ c ∈ s, Text.isBlank c = false

def IsGap (s : List Char) : Prop := s ≠ [] ∧ ∀ c ∈ s, Text.isBlank c = true

instance (s : List Char) : Decidable (NoBlank s) :=
  decidable_of_iff (s.all (! Text.isBlank ·) = true) (by simp [NoBlank])

instance (s : List Char) : Decidable (IsGap s) :=
  decidable_of_iff (s ≠ [] ∧ s.all Text.isBlank = true) (by simp [IsGap])

/-- A specifier without comments takes a binding of the other module and exports it under a name. -/
inductive Specifies : String → String → String → Prop
  | plain {binding : List Char} : NoBlank binding →
      Specifies (String.ofList binding) (unquote (String.ofList binding)) (unquote (String.ofList binding))
  | renamed {binding front back exported : List Char} : NoBlank binding → IsGap front → IsGap back →
      NoBlank exported →
      Specifies (String.ofList (binding ++ (front ++ 'a' :: 's' :: (back ++ exported))))
        (unquote (String.ofList binding)) (unquote (String.ofList exported))

namespace Outline

variable {s rest : List Char}

theorem dropWhile_gap {front : List Char} (hfront : ∀ c ∈ front, Text.isBlank c = true) (hrest : NoBlank rest) :
    (front ++ rest).dropWhile Text.isBlank = rest := by
  rw [List.dropWhile_append_of_pos hfront]
  cases rest with
  | nil => rfl
  | cons c more => rw [List.dropWhile_cons_of_neg (by simp [hrest c List.mem_cons_self])]

theorem go_of_noBlank (h : NoBlank s) (piece rest : List Char) :
    behindAs.go piece (s ++ rest) = behindAs.go piece rest := by
  induction s with
  | nil => rfl
  | cons c more ih =>
    obtain ⟨hc, hmore⟩ := List.forall_mem_cons.1 h
    have hnone : afterAs? (c :: (more ++ rest)) = none := by
      rw [afterAs?, if_neg (by simp [hc])]
    rw [List.cons_append, behindAs.go]
    split
    · rename_i hsome
      cases hnone.symm.trans hsome
    · exact ih hmore

theorem go_nil (piece : List Char) : behindAs.go piece [] = piece := by
  rw [behindAs.go]
  rfl

theorem behindAs_of_noBlank (h : NoBlank s) : behindAs s = s := by
  have hgo := go_of_noBlank h s []
  rwa [List.append_nil, go_nil] at hgo

theorem afterAs?_gap {front back exported : List Char} (hfront : IsGap front) (hback : IsGap back)
    (hexported : NoBlank exported) :
    afterAs? (front ++ 'a' :: 's' :: (back ++ exported)) = some exported := by
  obtain ⟨hne, hfront⟩ := hfront
  obtain ⟨hne', hback⟩ := hback
  obtain ⟨c, front, rfl⟩ := List.exists_cons_of_ne_nil hne
  obtain ⟨d, back, rfl⟩ := List.exists_cons_of_ne_nil hne'
  obtain ⟨hc, hfront⟩ := List.forall_mem_cons.1 hfront
  obtain ⟨hd, hback⟩ := List.forall_mem_cons.1 hback
  have hword : (front ++ 'a' :: 's' :: d :: (back ++ exported)).dropWhile Text.isBlank =
      'a' :: 's' :: d :: (back ++ exported) := by
    rw [List.dropWhile_append_of_pos hfront]
    rfl
  rw [List.cons_append, List.cons_append, afterAs?, if_pos hc, hword]
  show (if Text.isBlank d then some ((back ++ exported).dropWhile Text.isBlank) else none) = some exported
  rw [if_pos hd, dropWhile_gap hback hexported]

theorem behindAs_renamed {binding front back exported : List Char} (hbinding : NoBlank binding)
    (hfront : IsGap front) (hback : IsGap back) (hexported : NoBlank exported) :
    behindAs (binding ++ (front ++ 'a' :: 's' :: (back ++ exported))) = exported := by
  have hafter := afterAs?_gap hfront hback hexported
  rw [behindAs, go_of_noBlank hbinding, behindAs.go]
  split
  · rename_i after hsome
    obtain rfl := Option.some.inj (hafter.symm.trans hsome)
    have hgo := go_of_noBlank hexported exported []
    rwa [List.append_nil, go_nil] at hgo
  · rename_i hnone
    cases hafter.symm.trans hnone

theorem specifies_eq {specifier binding exported : String} (h : Specifies specifier binding exported) :
    exported = exportedName specifier ∧
      binding = unquote (String.ofList (specifier.toList.takeWhile (!Text.isBlank ·))) := by
  cases h with
  | plain h =>
    rw [exportedName, String.toList_ofList, behindAs_of_noBlank h]
    refine ⟨rfl, ?_⟩
    rw [List.takeWhile_eq_self_iff.2 fun c hc => by simp [h c hc]]
  | renamed hbinding hfront hback hexported =>
    rw [exportedName, String.toList_ofList, behindAs_renamed hbinding hfront hback hexported]
    refine ⟨rfl, ?_⟩
    obtain ⟨c, front, rfl⟩ := List.exists_cons_of_ne_nil hfront.1
    have hc : Text.isBlank c = true := hfront.2 c List.mem_cons_self
    rw [List.takeWhile_append_of_pos fun c hc => by simp [hbinding c hc],
      List.cons_append, List.takeWhile_cons_of_neg (by simp [hc]), List.append_nil]

/-! ## Lists of specifiers -/

def lists (outline : Outline) : List (List String × String) :=
  outline.exports.filterMap fun
    | .fromModule specifiers source => some (specifiers, source)
    | .default _ => none

def ExportsDefault (list : List String × String) : Prop :=
  ∃ specifier ∈ list.1, exportedName specifier = "default"

/-- A list exports this binding as the default, and no list that names another module exports one. -/
structure ExportsDefaultFrom (outline : Outline) (binding source : String) : Prop where
  listed : ∃ list ∈ outline.lists, list.2 = source ∧
    ∃ specifier ∈ list.1, Specifies specifier binding "default"
  only : ∀ list ∈ outline.lists, ExportsDefault list → list.2 = source

theorem reexportedDefault?_eq (outline : Outline) :
    outline.reexportedDefault? =
      (outline.lists.find? fun list => list.1.any (exportedName · = "default")).map
        fun list => unquote list.2 := by
  obtain ⟨exports, declarations⟩ := outline
  unfold reexportedDefault? lists
  dsimp only
  induction exports with
  | nil => rfl
  | cons e rest ih =>
    rcases e with ⟨specifiers, source⟩ | value
    · simp only [List.findSome?_cons, List.filterMap_cons, List.find?_cons]
      cases specifiers.any (exportedName · = "default") with
      | true => rfl
      | false => exact ih
    · exact ih

theorem exists_list_of_reexportedDefault? {module : String} (h : outline.reexportedDefault? = some module) :
    ∃ list ∈ outline.lists, unquote list.2 = module ∧ ExportsDefault list := by
  rw [reexportedDefault?_eq] at h
  obtain ⟨list, hfound, rfl⟩ := Option.map_eq_some_iff.1 h
  exact ⟨list, List.mem_of_find?_eq_some hfound, rfl, by simpa [ExportsDefault] using List.find?_some hfound⟩

theorem ExportsDefaultFrom.reexportedDefault? {binding source : String}
    (h : outline.ExportsDefaultFrom binding source) :
    outline.reexportedDefault? = some (unquote source) := by
  obtain ⟨list, hlist, -, specifier, hspecifier, hdefault⟩ := h.listed
  cases hfound : outline.reexportedDefault? with
  | none =>
    rw [reexportedDefault?_eq, Option.map_eq_none_iff, List.find?_eq_none] at hfound
    refine absurd ?_ (hfound list hlist)
    rw [List.any_eq_true]
    exact ⟨specifier, hspecifier, decide_eq_true (specifies_eq hdefault).1.symm⟩
  | some module =>
    obtain ⟨other, hother, rfl, hexports⟩ := exists_list_of_reexportedDefault? hfound
    rw [h.only other hother hexports]

end Outline

end Source

/-! ## The props of the default -/

namespace Props

open Source (Specifies unquote)

variable {start : Start} {path : String} {outline : Source.Outline}

theorem Start.inOrder_of_outline? (h : start.outline? path = some outline) : outline.InOrder := by
  obtain ⟨text, -, rfl⟩ := Option.map_eq_some_iff.1 h
  exact Source.Outline.inOrder_ofText _ _

theorem Start.Finite.schemaAt_of_own (h : start.Finite path)
    (houtline : start.outline? (Path.normalize path) = some outline)
    (hown : outline.reexportedDefault? = none) : start.schemaAt path = schemaOf? outline := by
  obtain ⟨files, htrail, -, -, hschema⟩ := h.exists_trail
  have hends : start.passedOn? (Path.normalize path) = none := by
    rw [Start.passedOn?, houtline, Option.bind_some, hown, Option.map_none]
  have hlast := htrail.getLast?_eq_of_ends htrail.mem_head hends
  rw [hschema, Start.propsAtEnd, hlast, Option.bind_some, Start.ownProps?, houtline, Option.bind_some, hown]
  rfl

/-- A name that is exported as the default is the function of that name at the top level, as long as each
nested declaration of the name comes behind one there; it is the function of a nested declaration if one
comes in front of them. A source has the props of its default, or those of the default of a module if a list
exports a binding of that module as the default, and it makes no difference which binding. -/
theorem default_bindings (h : start.Finite path)
    (houtline : start.outline? (Path.normalize path) = some outline) :
    (∀ name, outline.defaultName? = some name →
      (outline.TopFirst name → outline.defaultFunction? = outline.moduleFunction? name) ∧
      (outline.NestedFirst name → ∃ d ∈ outline.declarations, d.nested = true ∧
        d.bound? name = some outline.defaultFunction?)) ∧
    (outline.reexportedDefault? = none → Gives start (extract path) (schemaOf? outline)) ∧
    (∀ module, outline.reexportedDefault? = some module →
      ∃ list ∈ outline.lists, unquote list.2 = module ∧ Source.Outline.ExportsDefault list) ∧
    ∀ binding source, outline.ExportsDefaultFrom binding source →
      outline.reexportedDefault? = some (unquote source) ∧
        ((Path.normalize path = path ∨ ∃ name, Path.IsName name ∧ Path.LeadsTo path name) →
          ∃ found, Gives start (extract path) found ∧
            Gives start (resolveImport (unquote source) path >>= extract) found) := by
  have hsorted := Start.inOrder_of_outline? houtline
  refine ⟨fun name hname => ?_, fun hown => ?_, fun module => Source.Outline.exists_list_of_reexportedDefault?,
    fun binding source hexports => ⟨hexports.reexportedDefault?, fun hwritten => ?_⟩⟩
  · rw [Source.Outline.defaultFunction?_of_name hname]
    exact ⟨Source.Outline.function?_of_topFirst hsorted, Source.Outline.function?_of_nestedFirst hsorted⟩
  · rw [← h.schemaAt_of_own houtline hown]
    exact gives_extract path
  · exact ⟨_, gives_extract path, gives_extract_imported h houtline hexports.reexportedDefault? hwritten⟩

def nestedText : String :=
  "\x7b function Card(props: Size) \x7b\x7d \x7d\nfunction Card(props: Title) \x7b\x7d\nexport default Card;\n"

def topText : String := "function Card(props: Title) \x7b const Card = 1; \x7d\nexport default Card;\n"

/-- A binding of another module that is not its default. -/
def renamedText : String := "export \x7b Card as default \x7d from './a';\n"

theorem defaultName?_nestedText : (outlineOf "a.ts" nestedText).defaultName? = some "Card" := by decide +kernel

theorem nestedFirst_nestedText : (outlineOf "a.ts" nestedText).NestedFirst "Card" := by
  simp only [Source.Outline.NestedFirst, outlineOf, Source.Outline.mem_declarations_ofText]
  decide +kernel

theorem topFirst_topText : (outlineOf "b.ts" topText).TopFirst "Card" := by
  simp only [Source.Outline.TopFirst, outlineOf, Source.Outline.mem_declarations_ofText]
  decide +kernel

theorem lists_renamedText : (outlineOf "c.ts" renamedText).lists = [(["Card as default"], "'./a'")] := by
  decide +kernel

theorem specifies_cardAsDefault : Specifies "Card as default" "Card" "default" :=
  @Specifies.renamed ['C', 'a', 'r', 'd'] [' '] [' '] ['d', 'e', 'f', 'a', 'u', 'l', 't']
    (by decide) (by decide) (by decide) (by decide)

theorem exportsDefaultFrom_renamedText :
    (outlineOf "c.ts" renamedText).ExportsDefaultFrom "Card" "'./a'" where
  listed := ⟨(["Card as default"], "'./a'"), by rw [lists_renamedText]; exact List.mem_singleton_self _, rfl,
    _, List.mem_singleton_self _, specifies_cardAsDefault⟩
  only := by
    rw [lists_renamedText]
    exact List.forall_mem_singleton.2 fun _ => rfl

def cards : Start where
  files := .ofTexts [("a.ts", nestedText), ("b.ts", topText), ("c.ts", renamedText)]
  root := none
  given := none

theorem default_bindings_of_cards :
    (outlineOf "a.ts" nestedText).NestedFirst "Card" ∧
    (∃ d ∈ (outlineOf "a.ts" nestedText).declarations, d.nested = true ∧
      d.bound? "Card" = some (outlineOf "a.ts" nestedText).defaultFunction?) ∧
    (outlineOf "b.ts" topText).TopFirst "Card" ∧
    (outlineOf "b.ts" topText).defaultFunction? = (outlineOf "b.ts" topText).moduleFunction? "Card" ∧
    (outlineOf "c.ts" renamedText).ExportsDefaultFrom "Card" "'./a'" ∧
    ∃ found, Gives cards (extract "c.ts") found ∧
      Gives cards (resolveImport "./a" "c.ts" >>= extract) found := by
  have hnormal : Path.normalize "c.ts" = "c.ts" := by decide +kernel
  have houtline {path : String} (text : String) (hnormal : Path.normalize path = path)
      (htext : cards.files.text (cards.files.key path) = .ok text) :
      cards.outline? (Path.normalize path) = some (outlineOf path text) :=
    hnormal.symm ▸ Start.outline?_of_text htext
  obtain ⟨hnested, -⟩ := default_bindings (.texts _ none none "a.ts")
    (houtline nestedText (by decide +kernel) (by decide +kernel))
  obtain ⟨htop, -⟩ := default_bindings (.texts _ none none "b.ts")
    (houtline topText (by decide +kernel) (by decide +kernel))
  obtain ⟨-, -, -, hrenamed⟩ := default_bindings (.texts _ none none "c.ts")
    (houtline renamedText hnormal (by decide +kernel))
  exact ⟨nestedFirst_nestedText, (hnested "Card" defaultName?_nestedText).2 nestedFirst_nestedText,
    topFirst_topText, (htop "Card" (by decide +kernel)).1 topFirst_topText, exportsDefaultFrom_renamedText,
    (hrenamed _ _ exportsDefaultFrom_renamedText).2 (Or.inl hnormal)⟩

/-- The default need be neither the function of the module nor the default of the other module. -/
theorem default_not_of_module :
    ¬(∀ path text name, (outlineOf path text).defaultName? = some name →
      (outlineOf path text).defaultFunction? = (outlineOf path text).moduleFunction? name) ∧
    ¬(∀ path text module, (outlineOf path text).reexportedDefault? = some module →
      ∃ list ∈ (outlineOf path text).lists, unquote list.2 = module ∧
        ∃ specifier ∈ list.1, Specifies specifier "default" "default") := by
  refine ⟨fun h => ?_, fun h => ?_⟩
  · have hparameter : ∀ d ∈ (outlineOf "a.ts" nestedText).declarations, ∀ f ∈ d.bound? "Card",
        (f.bind (·.parameter)).map Source.TypeExpr.text = some (if d.nested then "Size" else "Title") := by
      simp only [outlineOf, Source.Outline.mem_declarations_ofText]
      decide +kernel
    obtain ⟨d, hd, hnested, hbound⟩ :=
      Source.Outline.function?_of_nestedFirst (Source.Outline.inOrder_ofText _ _) nestedFirst_nestedText
    rw [← outlineOf, ← Source.Outline.defaultFunction?_of_name defaultName?_nestedText,
      h "a.ts" nestedText "Card" defaultName?_nestedText] at hbound
    have hsize := hparameter d hd _ hbound
    rw [hnested] at hsize
    cases hfound : (outlineOf "a.ts" nestedText).moduleFunction? "Card" with
    | none => simp [hfound] at hsize
    | some f =>
      obtain ⟨e, he, htop, hbound'⟩ := Source.Outline.exists_of_moduleFunction? hfound
      have htitle := hparameter e he _ hbound'
      rw [htop, ← hfound, hsize] at htitle
      revert htitle
      decide
  · have hfollowed : (outlineOf "c.ts" renamedText).reexportedDefault? = some "./a" := by decide +kernel
    obtain ⟨list, hlist, -, specifier, hspecifier, hsays⟩ := h "c.ts" renamedText "./a" hfollowed
    rw [lists_renamedText] at hlist
    rw [List.mem_singleton.1 hlist] at hspecifier
    have hbinding := (Source.Outline.specifies_eq hsays).2
    rw [List.mem_singleton.1 hspecifier] at hbinding
    revert hbinding
    decide +kernel

end Props

end BlockCheck
