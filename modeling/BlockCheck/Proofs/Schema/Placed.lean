import BlockCheck.Proofs.Json.Places
import BlockCheck.Proofs.Props.Shapes
import BlockCheck.Proofs.Scan.Locations
import BlockCheck.Proofs.Schema.Origins
import BlockCheck.Props.Session

/-!
# Where findings stand

The location of a finding leads from the value to the place that the finding is about, and no two
findings stand at one location. An issue has that location written behind the one of the value itself,
which is also what comes out if the location is written step by step on the way down.
-/

namespace BlockCheck

namespace Schema

def step? : Schema → Step → Option Schema
  | .object properties _ _, .key name => properties.lookup name
  | .array element _, .index _ => element
  | _, _ => none

/-- The schema that stands for the values at a location. -/
def at? : Schema → Location → Option Schema
  | s, [] => some s
  | s, step :: rest => (s.step? step).bind fun part => at? part rest

theorem at?_cons {s part : Schema} {step : Step} (h : s.step? step = some part) (rest : Location) :
    s.at? (step :: rest) = part.at? rest := by
  rw [at?, h, Option.bind_some]

/-! ## Places -/

/-- The problems that are not about the value at their location alone. -/
def displaced : List Problem := [.missing, .productWithoutIdentity, .unknownProperty]

/-- What the location of a finding leads to. -/
inductive Placed (s : Schema) : Option Json → Finding → Prop
  | absent : Placed s none ⟨[], .missing⟩
  | lacking {value : Json} {parent : Location} {members : List (String × Json)} {key : String} :
      value.at? parent = some (.object members) → key ∉ Record.keys members →
      Placed s (some value) ⟨parent ++ [.key key], .missing⟩
  /-- The identity of a product is missed below an object, or below a list. -/
  | unidentified {value held : Json} {parent : Location} : value.at? parent = some held →
      ((∃ members, held = .object members) ∨ ∃ items, held = .array items) →
      Placed s (some value) ⟨parent ++ [.key "productID"], .productWithoutIdentity⟩
  | unknown {value : Json} {parent : Location} {members : List (String × Json)} {key : String}
      {properties : List (String × Schema)} {ignored : List String} {optional : Bool} :
      value.at? parent = some (.object members) → key ∈ Record.keys members →
      s.at? parent = some (.object properties ignored optional) → ¬Knows properties ignored key →
      Placed s (some value) ⟨parent ++ [.key key], .unknownProperty⟩
  | there {value held : Json} {location : Location} {problem : Problem} : problem ∉ displaced →
      value.at? location = some held → Placed s (some value) ⟨location, problem⟩

variable {mode : Mode} {s : Schema} {value : Json}

theorem Placed.under {part : Schema} {inner : Json} {step : Step} {f : Finding}
    (hpart : s.step? step = some part) (hinner : value.step? step = some inner)
    (h : Placed part (some inner) f) : Placed s (some value) (f.under step) := by
  cases h with
  | @lacking _ parent _ key hparent hkey =>
    change Placed s (some value) ⟨(step :: parent) ++ [.key key], .missing⟩
    exact .lacking ((Json.at?_cons hinner parent).trans hparent) hkey
  | @unidentified _ _ parent hparent hheld =>
    change Placed s (some value) ⟨(step :: parent) ++ [.key "productID"], .productWithoutIdentity⟩
    exact .unidentified ((Json.at?_cons hinner parent).trans hparent) hheld
  | @unknown _ parent _ key _ _ _ hparent hkey hs hknows =>
    change Placed s (some value) ⟨(step :: parent) ++ [.key key], .unknownProperty⟩
    exact .unknown ((Json.at?_cons hinner parent).trans hparent) hkey
      ((at?_cons hpart parent).trans hs) hknows
  | @there _ _ location _ hproblem hheld =>
    exact .there hproblem ((Json.at?_cons hinner location).trans hheld)

theorem misfit_not_displaced {problem : Problem} (h : problem.Misfit) : problem ∉ displaced := by
  cases h <;> simp [displaced]

theorem Finds.placed {f : Finding} (h : Finds mode s value f) (hs : s.DistinctNames) :
    Placed s (some value) f := by
  induction h with
  | whole hproblem => exact .there (misfit_not_displaced hproblem) rfl
  | unidentified hvalue =>
    change Placed _ _ ⟨[] ++ [.key "productID"], .productWithoutIdentity⟩
    exact .unidentified rfl hvalue
  | item hitem _ ih =>
    cases hs with
    | array helement => exact .under rfl hitem (ih (helement _ rfl))
  | @lacking _ _ _ _ p _ hlacks =>
    change Placed _ _ ⟨[] ++ [.key p.1], .missing⟩
    exact .lacking rfl hlacks
  | inside hp hheld _ ih =>
    cases hs with
    | object hnames hproperties =>
      exact .under (Record.lookup_of_mem hnames hp) hheld (ih (hproperties _ hp))
  | @unknown _ _ _ _ key _ hkey hknows =>
    change Placed _ _ ⟨[] ++ [.key key], .unknownProperty⟩
    exact .unknown rfl hkey rfl hknows

theorem placed_findings (hs : s.DistinctNames) :
    ∀ value, ∀ f ∈ s.findings mode value, Placed s (some value) f :=
  fun value f hf => (finds_of_mem_findings mode s value f hf).placed hs

theorem placed_check (hs : s.DistinctNames) (value : Option Json) :
    ∀ f ∈ s.check mode value, Placed s value f := by
  intro f hf
  obtain ⟨rfl, -, rfl⟩ | ⟨held, rfl, hf⟩ := mem_check_iff.1 hf
  · exact .absent
  · exact placed_findings hs held f hf

theorem location_ne_nil_of_displaced {f : Finding} (hf : f ∈ s.findings mode value)
    (h : f.problem ∈ displaced) : f.location ≠ [] := by
  cases finds_of_mem_findings mode s value f hf with
  | whole hproblem => exact absurd h (misfit_not_displaced hproblem)
  | unidentified | item | lacking | inside | unknown => exact List.cons_ne_nil _ _

/-! ## One finding at a place -/

theorem map_location_under (step : Step) (fs : List Finding) :
    (fs.map (Finding.under step)).map (·.location) = (fs.map (·.location)).map (step :: ·) := by
  simp [Function.comp_def, Finding.under]

theorem nodup_locations_of_length {fs : List Finding} (h : fs.length ≤ 1) :
    (fs.map (·.location)).Nodup := by
  cases fs with
  | nil => exact .nil
  | cons f rest =>
    obtain rfl : rest = [] := List.eq_nil_of_length_eq_zero (by simpa using h)
    exact List.nodup_singleton _

theorem length_primitiveFindings_le (type : Primitive) (value : Json) :
    (primitiveFindings type value).length ≤ 1 := by
  unfold primitiveFindings
  split <;> simp

theorem length_specialFindings_le (tag : String) (value : Json) :
    (specialFindings tag value).length ≤ 1 := by
  unfold specialFindings recordFindings
  repeat' split
  all_goals simp

theorem nodup_locations_check (h : ∀ value : Json, value.DistinctKeys →
      ((s.findings mode value).map (·.location)).Nodup)
    (value : Option Json) (hvalue : ∀ v ∈ value, v.DistinctKeys) :
    ((s.check mode value).map (·.location)).Nodup := by
  cases value with
  | none =>
    apply nodup_locations_of_length
    rw [check, absentFindings]
    split <;> simp
  | some value => exact h value (hvalue value rfl)

theorem locations_unknownFindings (properties : List (String × Schema)) (ignored : List String)
    (members : List (String × Json)) :
    (unknownFindings .strict properties ignored members).map (·.location) =
      ((Record.keys members).filter (isUnknownKey properties ignored)).map fun key => [.key key] := by
  rw [unknownFindings_strict, List.map_map]
  rfl

theorem nodup_locations_object {properties : List (String × Schema)} {ignored : List String}
    {members : List (String × Json)} (hnames : (Record.keys properties).Nodup)
    (hkeys : (Record.keys members).Nodup)
    (h : ∀ p ∈ properties, ((p.2.check mode (members.lookup p.1)).map (·.location)).Nodup) :
    ((propertyFindings mode properties members ++
      unknownFindings mode properties ignored members).map (·.location)).Nodup := by
  rw [List.map_append, List.nodup_append]
  refine ⟨?_, ?_, ?_⟩
  · rw [propertyFindings_eq, List.map_flatMap]
    simp only [map_location_under]
    apply Scan.nodup_flatMap_cons
    · rw [show properties.map (fun p => Step.key p.1) = (Record.keys properties).map Step.key from
        List.map_map.symm]
      exact hnames.map fun _ _ h => Step.key.inj h
    · exact h
  · cases mode with
    | lenient => exact .nil
    | strict =>
      rw [locations_unknownFindings]
      exact (hkeys.filter _).map fun _ _ h => Step.key.inj (List.head_eq_of_cons_eq h)
  · -- The name of a property is declared, and an unknown key is not.
    intro location hproperty location' hunknown heq
    rw [propertyFindings_eq, List.map_flatMap] at hproperty
    simp only [map_location_under] at hproperty
    obtain ⟨p, hp, hproperty⟩ := List.mem_flatMap.1 hproperty
    obtain ⟨rest, -, rfl⟩ := List.mem_map.1 hproperty
    cases mode with
    | lenient => cases hunknown
    | strict =>
      rw [locations_unknownFindings] at hunknown
      obtain ⟨key, hkey, rfl⟩ := List.mem_map.1 hunknown
      obtain rfl : p.1 = key := Step.key.inj (List.head_eq_of_cons_eq heq)
      have hknows : Knows properties ignored p.1 := .inl (List.mem_map_of_mem hp)
      rw [← isUnknownKey_eq_false_iff, (List.mem_filter.1 hkey).2] at hknows
      cases hknows

theorem nodup_locations (hs : s.DistinctNames) :
    ∀ value : Json, value.DistinctKeys → ((s.findings mode value).map (·.location)).Nodup := by
  induction hs with
  | primitive type optional =>
    intro value _
    rw [findings]
    exact nodup_locations_of_length (length_primitiveFindings_le type value)
  | @array element optional _ ih =>
    intro value hvalue
    unfold findings
    split
    · rename_i items
      cases element with
      | none => exact .nil
      | some element =>
        rw [elementFindings_some, List.map_flatMap]
        simp only [map_location_under]
        apply Scan.nodup_flatMap_cons
        · exact Scan.nodup_indexSteps items
        · intro item hitem
          cases hvalue with
          | array hitems =>
            exact ih element rfl item.1 (hitems _ (List.fst_mem_of_mem_zipIdx hitem))
    · apply nodup_locations_of_length
      split <;> simp
    · exact List.nodup_singleton _
  | @object properties ignored optional hnames _ ih =>
    intro value hvalue
    unfold findings
    split
    · cases hvalue with
      | object hkeys hmembers =>
        refine nodup_locations_object hnames hkeys fun p hp => ?_
        apply nodup_locations_check (ih p hp)
        exact fun v hv => hmembers _ (Record.mem_of_lookup hv)
    · exact List.nodup_singleton _
  | union =>
    intro value _
    apply nodup_locations_of_length
    rw [findings]
    split <;> simp
  | special tag optional =>
    intro value _
    rw [findings]
    exact nodup_locations_of_length (length_specialFindings_le tag value)
  | any optional =>
    intro value _
    rw [findings]
    exact .nil

/-! ## Locations written on the way -/

/-- The issues of a value that stands at the written location `base`, each with the location that was
written on the way down to it. -/
def writtenIssues (mode : Mode) (base : String) : Schema → Option Json → List Issue
  | s, none => if s.optional then [] else [⟨base, .missing⟩]
  | .array (some element) _, some (.array items) =>
    items.zipIdx.flatMap fun item =>
      writtenIssues mode (Location.extendStep base (.index item.2)) element (some item.1)
  | .object properties ignored _, some (.object members) =>
    (properties.flatMap fun p =>
      writtenIssues mode (Location.extendStep base (.key p.1)) p.2 (members.lookup p.1)) ++
    (unknownFindings mode properties ignored members).map (Finding.issue base)
  | .union members _, some value =>
    if members.isEmpty || members.attach.any fun s => (writtenIssues mode base s.1 (some value)).isEmpty
    then [] else [⟨base, .noUnionMember (members.map describe)⟩]
  | s, some value => (s.findings mode value).map (Finding.issue base)
termination_by s => sizeOf s
decreasing_by
  · simp
    omega
  · have := List.sizeOf_lt_of_mem ‹_ ∈ properties›
    obtain ⟨name, s⟩ := p
    simp at this ⊢
    omega
  · have := List.sizeOf_lt_of_mem s.2
    simp
    omega

theorem map_issue_under (base : String) (step : Step) (fs : List Finding) :
    (fs.map (Finding.under step)).map (Finding.issue base) =
      fs.map (Finding.issue (Location.extendStep base step)) := by
  rw [List.map_map]
  rfl

theorem writtenIssues_none (base : String) (s : Schema) :
    writtenIssues mode base s none = s.absentFindings.map (Finding.issue base) := by
  rw [writtenIssues, absentFindings]
  split <;> rfl

theorem writtenIssues_array {element : Option Schema} (base : String) (optional : Bool)
    (value : Json)
    (h : ∀ s ∈ element, ∀ base value, writtenIssues mode base s (some value) =
      (s.findings mode value).map (Finding.issue base)) :
    writtenIssues mode base (.array element optional) (some value) =
      ((Schema.array element optional).findings mode value).map (Finding.issue base) := by
  cases element with
  | none => cases value <;> (unfold writtenIssues; rfl)
  | some element =>
    cases value with
    | array items =>
      rw [writtenIssues, findings, elementFindings_some, List.map_flatMap]
      simp only [map_issue_under, h element rfl]
    | _ => unfold writtenIssues; rfl

theorem writtenIssues_object {properties : List (String × Schema)} (base : String)
    (ignored : List String) (optional : Bool) (value : Json)
    (h : ∀ p ∈ properties, ∀ base value, writtenIssues mode base p.2 value =
      (p.2.check mode value).map (Finding.issue base)) :
    writtenIssues mode base (.object properties ignored optional) (some value) =
      ((Schema.object properties ignored optional).findings mode value).map
        (Finding.issue base) := by
  cases value with
  | object members =>
    rw [writtenIssues, findings, List.map_append, propertyFindings_eq, List.map_flatMap]
    simp only [map_issue_under]
    rw [List.flatMap_congr fun p hp => h p hp _ _]
  | _ => unfold writtenIssues; rfl

theorem writtenIssues_union {members : List Schema} (base : String) (optional : Bool)
    (value : Json)
    (h : ∀ s ∈ members, ∀ base, writtenIssues mode base s (some value) =
      (s.findings mode value).map (Finding.issue base)) :
    writtenIssues mode base (.union members optional) (some value) =
      ((Schema.union members optional).findings mode value).map (Finding.issue base) := by
  have hany : (members.attach.any fun s => (writtenIssues mode base s.1 (some value)).isEmpty) =
      members.any fun s => (s.findings mode value).isEmpty := by
    rw [@List.any_subtype _ _ _ _ fun s => (s.findings mode value).isEmpty, List.unattach_attach]
    intro s hs
    rw [h s hs base, List.isEmpty_map]
  rw [writtenIssues, findings, anyAccepts_eq, hany]
  split <;> rfl

theorem writtenIssues_eq (mode : Mode) (s : Schema) :
    ∀ base value, writtenIssues mode base s value = (s.check mode value).map (Finding.issue base) := by
  induction s using Schema.induction with
  | array element optional ih =>
    rintro base (_ | value)
    · exact writtenIssues_none base _
    · exact writtenIssues_array base optional value fun s hs base value => ih s hs base (some value)
  | object properties ignored optional ih =>
    rintro base (_ | value)
    · exact writtenIssues_none base _
    · exact writtenIssues_object base ignored optional value ih
  | union members optional ih =>
    rintro base (_ | value)
    · exact writtenIssues_none base _
    · exact writtenIssues_union base optional value fun s hs base => ih s hs base (some value)
  | primitive | special | any =>
    rintro base (_ | value)
    · exact writtenIssues_none base _
    · cases value <;> (unfold writtenIssues; rfl)

/-- The issues of a value are written from findings that do not depend on where the value stands,
each of them in its place and no two of them at one location. -/
theorem validate_eq_located (mode : Mode) {s : Schema} {value : Option Json} (hs : s.DistinctNames)
    (hvalue : ∀ v ∈ value, v.DistinctKeys) :
    ∃ located : List Finding,
      (∀ base, s.validate mode base value = located.map (Finding.issue base)) ∧
      (∀ base, writtenIssues mode base s value = located.map (Finding.issue base)) ∧
      (located.map (·.location)).Nodup ∧
      ∀ f ∈ located, Placed s value f := by
  refine ⟨s.check mode value, fun base => rfl, (writtenIssues_eq mode s · value), ?_, ?_⟩
  · exact nodup_locations_check (nodup_locations hs) value hvalue
  · exact placed_check hs value

/-! ## A shelf with four findings -/

def shelf : Schema :=
  .object [("title", .primitive .string false),
    ("prices", .array (some (.primitive .number false)) false),
    ("featured", .special "Product" false)] ["note"] false

theorem distinctNames_shelf : shelf.DistinctNames := by
  have hprices : (Schema.array (some (.primitive .number false)) false).DistinctNames := by
    refine .array fun s hs => ?_
    obtain rfl := Option.some.inj hs
    exact .primitive _ _
  refine .object (by decide) fun p hp => ?_
  simp only [List.mem_cons, List.not_mem_nil, or_false] at hp
  obtain rfl | rfl | rfl := hp
  · exact .primitive _ _
  · exact hprices
  · exact .special _ _

def shelfDescription : String :=
  "\x7b\"kind\":\"object\",\"properties\":\x7b\"title\":\x7b\"kind\":\"any\"\x7d\x7d,\"ignored\":[\"note\"]\x7d"

theorem exists_described : ∃ s, (Json.parse shelfDescription).toOption.bind ofJson? = some s ∧
    s.DistinctNames := by
  have hread : ((Json.parse shelfDescription).toOption.bind ofJson?).isSome = true := by decide +kernel
  obtain ⟨s, hs⟩ := Option.isSome_iff_exists.1 hread
  refine ⟨s, hs, ?_⟩
  cases hparse : Json.parse shelfDescription with
  | error reason =>
    rw [hparse] at hs
    cases hs
  | ok description =>
    rw [hparse] at hs
    exact distinctNames_of_ofJson? (Json.distinctKeys_of_parse hparse) hs

def shelfSource : String :=
  "interface Props\x7btitle:string;prices:number[];featured:Product;/** @ignore */note:string\x7d"

def shelfHeld : Json :=
  .object [("prices", .array [.int 3, .string "four"]), ("featured", .object []), ("note", .null),
    ("shade", .null)]

theorem distinctKeys_shelfHeld : shelfHeld.DistinctKeys := by
  have hprices : (Json.array [.int 3, .string "four"]).DistinctKeys := by
    refine .array fun item hitem => ?_
    simp only [List.mem_cons, List.not_mem_nil, or_false] at hitem
    obtain rfl | rfl := hitem
    · exact .int _
    · exact .string _
  refine .object (by decide) fun m hm => ?_
  simp only [List.mem_cons, List.not_mem_nil, or_false] at hm
  obtain rfl | rfl | rfl | rfl := hm
  · exact hprices
  · exact .object (by decide) nofun
  · exact .null
  · exact .null

/-- What is held is also seen against a schema that was read, and against that of a source. -/
theorem validate_shelf_eq_located :
    shelf.DistinctNames ∧ shelfHeld.DistinctKeys ∧
    shelf.validate .strict "home" (some shelfHeld) =
      [⟨"home.title", .missing⟩, ⟨"home.prices[1]", .mismatch "number" .string⟩,
        ⟨"home.featured.productID", .productWithoutIdentity⟩, ⟨"home.shade", .unknownProperty⟩] ∧
    (∃ located : List Finding,
      (∀ base, shelf.validate .strict base (some shelfHeld) = located.map (Finding.issue base)) ∧
      (∀ base, writtenIssues .strict base shelf (some shelfHeld) =
        located.map (Finding.issue base)) ∧
      (located.map (·.location)).Nodup ∧
      ∀ f ∈ located, Placed shelf (some shelfHeld) f) ∧
    (∃ s, (Json.parse shelfDescription).toOption.bind ofJson? = some s ∧
      ∃ located : List Finding,
        (∀ base, s.validate .strict base (some shelfHeld) = located.map (Finding.issue base)) ∧
        (∀ base, writtenIssues .strict base s (some shelfHeld) = located.map (Finding.issue base)) ∧
        (located.map (·.location)).Nodup ∧
        ∀ f ∈ located, Placed s (some shelfHeld) f) ∧
    ∃ s, Props.schemaOf? (Props.outlineOf "sections/Shelf.ts" shelfSource) = some s ∧
      ∃ located : List Finding,
        (∀ base, s.validate .strict base (some shelfHeld) = located.map (Finding.issue base)) ∧
        (∀ base, writtenIssues .strict base s (some shelfHeld) = located.map (Finding.issue base)) ∧
        (located.map (·.location)).Nodup ∧
        ∀ f ∈ located, Placed s (some shelfHeld) f := by
  have hkeys : ∀ value ∈ some shelfHeld, value.DistinctKeys := by
    rintro _ ⟨⟩
    exact distinctKeys_shelfHeld
  have hsource : (Props.schemaOf? (Props.outlineOf "sections/Shelf.ts" shelfSource)).isSome = true := by
    decide +kernel
  obtain ⟨s, hs⟩ := Option.isSome_iff_exists.1 hsource
  obtain ⟨described, hdescribed, hnames⟩ := exists_described
  refine ⟨distinctNames_shelf, distinctKeys_shelfHeld, by decide, ?_, ⟨described, hdescribed, ?_⟩, s, hs, ?_⟩
  · exact validate_eq_located .strict distinctNames_shelf hkeys
  · exact validate_eq_located .strict hnames hkeys
  · exact validate_eq_located .strict (Props.shaped_schemaOf? hs).names hkeys

end Schema

end BlockCheck
