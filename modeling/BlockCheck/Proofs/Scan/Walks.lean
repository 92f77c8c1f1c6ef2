import BlockCheck.Proofs.Json.Places
import BlockCheck.Proofs.Scan.Mentions

/-!
# Walks through a document

The walk over all objects comes to each object of a document once, to an outer one before those inside it
and otherwise in the order of the text. A stack of what is still to be looked at leads along the same way.
The references are what this walk finds of them where no discriminator is passed.
-/

namespace BlockCheck.Scan

variable {naming : Naming} {key : String} {value document : Json} {location : Location} {node : Node}

/-! ## Own node, and those of the parts -/

def nodeOf? : Json → Option Node
  | .object members => some ⟨[], members⟩
  | _ => none

theorem nodeOf?_eq_some_iff : nodeOf? value = some node ↔ node.location = [] ∧ value = .object node.members := by
  obtain ⟨location, members⟩ := node
  cases value with
  | object own => simp [nodeOf?, eq_comm]
  | _ => simp [nodeOf?]

theorem memberNodes_eq (members : List (String × Json)) :
    memberNodes members = members.flatMap fun m => (nodes m.2).map (Node.under (.key m.1)) := by
  induction members with
  | nil => rfl
  | cons m rest ih => rw [memberNodes, ih, singleMemberNodes, List.flatMap_cons]

theorem itemNodes_eq (position : Nat) (items : List Json) :
    itemNodes position items =
      (items.zipIdx position).flatMap fun item => (nodes item.1).map (Node.under (.index item.2)) := by
  induction items generalizing position with
  | nil => rfl
  | cons item rest ih => rw [itemNodes, ih, List.zipIdx_cons, List.flatMap_cons]

theorem nodes_eq (value : Json) :
    nodes value =
      (nodeOf? value).toList ++ value.parts.flatMap fun p => (nodes p.2).map (Node.under p.1) := by
  cases value with
  | null | bool | int | real | string => rfl
  | array items =>
    rw [nodes, itemNodes_eq, Json.parts, List.flatMap_map]
    rfl
  | object members =>
    rw [nodes, memberNodes_eq, Json.parts, List.flatMap_map]
    rfl

/-! ## With a stack -/

def Node.below (outer : Location) (node : Node) : Node := { node with location := outer ++ node.location }

theorem below_concat (outer : Location) (step : Step) :
    Node.below (outer ++ [step]) = Node.below outer ∘ Node.under step := by
  funext node
  simp [Node.below, Node.under]

noncomputable def weight : List (Location × Json) → Nat
  | [] => 0
  | entry :: stack => sizeOf entry.2 + weight stack

theorem weight_append (front stack : List (Location × Json)) :
    weight (front ++ stack) = weight front + weight stack := by
  induction front with
  | nil => rw [List.nil_append, weight, Nat.zero_add]
  | cons entry front ih => rw [List.cons_append, weight, weight, ih, Nat.add_assoc]

theorem weight_parts_lt (location : Location) (value : Json) :
    weight (value.parts.map fun p => (location ++ [p.1], p.2)) < sizeOf value := by
  cases value with
  | null | bool => simp [Json.parts, weight]
  | int | real | string =>
    simp only [Json.parts, List.map_nil, weight, Json.int.sizeOf_spec, Json.real.sizeOf_spec,
      Json.string.sizeOf_spec]
    omega
  | array items =>
    have hitems : ∀ n, weight ((items.zipIdx n).map fun item => (location ++ [.index item.2], item.1)) <
        sizeOf items := by
      induction items with
      | nil => simp [weight]
      | cons item rest ih =>
        intro n
        have := ih (n + 1)
        simp only [List.zipIdx_cons, List.map_cons, weight, List.cons.sizeOf_spec]
        omega
    have := hitems 0
    rw [Json.parts, List.map_map, Json.array.sizeOf_spec]
    exact Nat.lt_add_left 1 this
  | object members =>
    have hmembers : weight (members.map fun m => (location ++ [.key m.1], m.2)) < sizeOf members := by
      induction members with
      | nil => simp [weight]
      | cons m rest ih =>
        obtain ⟨name, inner⟩ := m
        simp only [List.map_cons, weight, List.cons.sizeOf_spec, Prod.mk.sizeOf_spec]
        omega
    rw [Json.parts, List.map_map, Json.object.sizeOf_spec]
    exact Nat.lt_add_left 1 hmembers

/-- All objects of what is on the stack, which has each value under its location. What is looked at
gives its place to its parts. -/
def walk : List (Location × Json) → List Node
  | [] => []
  | (location, value) :: stack =>
    ((nodeOf? value).map (Node.below location)).toList ++
      walk ((value.parts.map fun p => (location ++ [p.1], p.2)) ++ stack)
termination_by stack => weight stack
decreasing_by
  rw [weight_append, weight]
  exact Nat.add_lt_add_right (weight_parts_lt location value) _

theorem walk_eq (stack : List (Location × Json)) :
    walk stack = stack.flatMap fun entry => (nodes entry.2).map (Node.below entry.1) := by
  induction stack using walk.induct with
  | case1 => simp [walk]
  | case2 location value stack ih =>
    rw [walk, ih, List.flatMap_append, List.flatMap_map, List.flatMap_cons, nodes_eq value,
      List.map_append, List.map_flatMap, List.append_assoc, Option.toList_map]
    simp only [List.map_map, below_concat]

/-! ## The order of the walk -/

/-- A walk that looks at a value before its parts, and at these in their order, comes to the first
location before it comes to the second one. -/
inductive Before : Json → Location → Location → Prop
  | above {value : Json} {step : Step} {rest : Location} : Before value [] (step :: rest)
  | aside {value : Json} {s t : Step} {a b : Location} : [s, t].Sublist (value.parts.map Prod.fst) →
      Before value (s :: a) (t :: b)
  | inside {value inner : Json} {s : Step} {a b : Location} : (s, inner) ∈ value.parts →
      Before inner a b → Before value (s :: a) (s :: b)

theorem Before.ne (h : value.DistinctKeys) {a b : Location} (hbefore : Before value a b) : a ≠ b := by
  induction hbefore with
  | above => exact (List.cons_ne_nil _ _).symm
  | aside hsteps =>
    have hne := List.nodup_iff_sublist.1 h.nodup_steps
    rintro heq
    rw [(List.cons.inj heq).1] at hsteps
    exact hne _ hsteps
  | inside hinner _ ih =>
    intro heq
    exact ih (h.of_mem_parts hinner) (List.cons.inj heq).2

theorem pairwise_before (value : Json) :
    (nodes value).Pairwise fun a b => Before value a.location b.location := by
  induction value using Json.induction_parts with
  | h value ih =>
    rw [nodes_eq, List.pairwise_append, List.pairwise_flatMap]
    refine ⟨?_, ⟨?_, ?_⟩, ?_⟩
    · cases nodeOf? value <;> simp
    · -- Inside one part, in two parts side by side, and at last the value itself and what is inside.
      intro p hp
      rw [List.pairwise_map]
      exact (ih p hp).imp fun hbefore => .inside hp hbefore
    · rw [List.pairwise_iff_forall_sublist]
      intro p q hpq a ha b hb
      obtain ⟨inner, -, rfl⟩ := List.mem_map.1 ha
      obtain ⟨other, -, rfl⟩ := List.mem_map.1 hb
      exact .aside (hpq.map Prod.fst)
    · intro own hown a ha
      obtain ⟨p, -, ha⟩ := List.mem_flatMap.1 ha
      obtain ⟨inner, -, rfl⟩ := List.mem_map.1 ha
      rw [(nodeOf?_eq_some_iff.1 (Option.mem_toList.1 hown)).1]
      exact .above

theorem nodup_nodes (h : value.DistinctKeys) : ((nodes value).map (·.location)).Nodup := by
  rw [List.Nodup, List.pairwise_map]
  exact (pairwise_before value).imp fun hbefore => hbefore.ne h

theorem mem_nodes_iff (h : value.DistinctKeys) :
    node ∈ nodes value ↔ value.at? node.location = some (.object node.members) := by
  induction value using Json.induction_parts generalizing node with
  | h value ih =>
    obtain ⟨location, members⟩ := node
    rw [nodes_eq, List.mem_append, Option.mem_toList, nodeOf?_eq_some_iff]
    simp only [List.mem_flatMap, List.mem_map]
    cases location with
    | nil => simp [Json.at?, Node.under]
    | cons step rest =>
      rw [h.at?_cons_eq_some_iff]
      simp only [reduceCtorEq, false_and, false_or]
      constructor
      · rintro ⟨p, hp, inner, hinner, heq⟩
        cases heq
        exact ⟨p, hp, rfl, (ih p hp (h.of_mem_parts hp)).1 hinner⟩
      · rintro ⟨p, hp, rfl, hinner⟩
        exact ⟨p, hp, ⟨rest, members⟩, (ih p hp (h.of_mem_parts hp)).2 hinner, rfl⟩

/-! ## References along the walk -/

/-- The reference that a node is, with its members but for the discriminator as properties. -/
def Node.reference? (naming : Naming) (key : String) (node : Node) : Option Reference :=
  match node.members.lookup key with
  | some (.string identifier) =>
    if naming.classify identifier = .external then none
    else some ⟨identifier, naming.classify identifier, node.location, node.members.filter (·.1 != key)⟩
  | _ => none

theorem reference?_under (step : Step) (node : Node) :
    (node.under step).reference? naming key = (node.reference? naming key).map (Reference.under step) := by
  unfold Node.reference? Node.under
  dsimp only
  split
  · split <;> rfl
  · rfl

theorem referenceOf_eq (members : List (String × Json)) :
    referenceOf naming key members = Node.reference? naming key ⟨[], members⟩ := by
  unfold referenceOf Node.reference?
  cases members.lookup key with
  | none => rfl
  | some found =>
    cases found with
    | string identifier =>
      cases hkind : naming.classify identifier <;> simp [Json.string?, Record.without, hkind]
    | _ => rfl

theorem flatMap_without {α : Type} (members : List (String × Json)) (f : String × Json → List α) :
    (Record.without key members).flatMap f =
      members.flatMap fun m => if m.1 = key then [] else f m := by
  induction members with
  | nil => rfl
  | cons m rest ih =>
    rw [List.flatMap_cons, ← ih]
    by_cases hm : m.1 = key <;> simp [Record.without, hm]

theorem references_eq (naming : Naming) (key : String) (value : Json) :
    references naming key value =
      ((nodeOf? value).bind (Node.reference? naming key)).toList ++ value.parts.flatMap fun p =>
        if p.1 = .key key then [] else (references naming key p.2).map (Reference.under p.1) := by
  cases value with
  | null | bool | int | real | string => rfl
  | array items =>
    rw [references, itemReferences_eq, Json.parts, List.flatMap_map]
    simp [nodeOf?]
  | object members =>
    rw [references, memberReferences_eq, referenceOf_eq, flatMap_without, Json.parts, List.flatMap_map]
    simp [nodeOf?]

theorem references_eq_filterMap (naming : Naming) (hkey : ∀ n, key ≠ (Step.index n).text) (value : Json) :
    references naming key value =
      ((nodes value).filter fun node => key ∉ node.location.map Step.text).filterMap
        (Node.reference? naming key) := by
  induction value using Json.induction_parts with
  | h value ih =>
    rw [references_eq, nodes_eq, List.filter_append, List.filterMap_append, List.filter_flatMap,
      List.filterMap_flatMap]
    congr 1
    · cases hown : nodeOf? value with
      | none => rfl
      | some own =>
        rw [Option.toList_some, List.filter_cons_of_pos (by simp [(nodeOf?_eq_some_iff.1 hown).1])]
        cases hfound : own.reference? naming key <;> simp [hfound]
    · refine List.flatMap_congr fun p hp => ?_
      rw [List.filter_map]
      by_cases hstep : p.1 = .key key
      · -- Nothing is kept of what stands at the discriminator.
        rw [if_pos hstep, eq_comm, List.filterMap_eq_nil_iff]
        intro node hnode
        simp [Node.under, hstep, Step.text] at hnode
      · have htext : key ≠ p.1.text := by
          intro heq
          cases hp : p.1 with
          | key name => exact hstep (by rw [hp, heq, hp]; rfl)
          | index n => exact hkey n (by rw [heq, hp])
        have hkept : (fun node : Node => decide (key ∉ node.location.map Step.text)) ∘ Node.under p.1 =
            fun node => decide (key ∉ node.location.map Step.text) := by
          funext node
          simp [Node.under, Ne.symm htext]
        rw [if_neg hstep, hkept, ih p hp, List.filterMap_map, List.map_filterMap]
        congr 1
        funext node
        exact (reference?_under p.1 node).symm

/-- The walk comes to each object once and in the order of a walk in depth, as does a walk with a stack,
and the references are found along it. -/
theorem walks_agree (naming : Naming) (h : document.DistinctKeys) (hkey : ∀ n, key ≠ (Step.index n).text) :
    walk [([], document)] = nodes document ∧
      (∀ node, node ∈ nodes document ↔ document.at? node.location = some (.object node.members)) ∧
      ((nodes document).map (·.location)).Nodup ∧
      (nodes document).Pairwise (fun a b => Before document a.location b.location) ∧
      references naming key document =
        ((nodes document).filter fun node => key ∉ node.location.map Step.text).filterMap
          (Node.reference? naming key) := by
  refine ⟨?_, fun _ => mem_nodes_iff h, nodup_nodes h, pairwise_before document,
    references_eq_filterMap naming hkey document⟩
  rw [walk_eq, List.flatMap_singleton]
  exact List.map_id _

/-! A document with a discriminator that is an object, and with a box inside a box and behind something
external. -/

def box : Json := .object [("__resolveType", .string "site/Box.tsx")]

def boxes : Json :=
  .object [("__resolveType", box),
    ("boxes", .array [.object [("__resolveType", .string "site/Box.tsx"), ("inner", box)],
      .object [("__resolveType", .string "website/Lazy.tsx"), ("section", box)],
      .object [("__resolveType", .string "Footer"), ("size", .int 2)]])]

theorem distinctKeys_boxes : boxes.DistinctKeys := by
  have hbox : box.DistinctKeys := .object (by decide) (by simpa using .string _)
  refine .object (by decide) ?_
  rw [List.forall_mem_cons, List.forall_mem_singleton]
  refine ⟨hbox, .array ?_⟩
  rw [List.forall_mem_cons, List.forall_mem_cons, List.forall_mem_singleton]
  refine ⟨.object (by decide) ?_, .object (by decide) ?_, .object (by decide) ?_⟩
  · exact List.forall_mem_cons.2 ⟨.string _, by simpa using hbox⟩
  · exact List.forall_mem_cons.2 ⟨.string _, by simpa using hbox⟩
  · exact List.forall_mem_cons.2 ⟨.string _, by simpa using .int _⟩

theorem resolveType_ne_index (n : Nat) : "__resolveType" ≠ (Step.index n).text := by
  intro heq
  have hhead := congrArg (fun s => s.toList.head?) heq
  simp [Step.text] at hhead

theorem walks_agree_boxes :
    boxes.DistinctKeys ∧ (∀ n, "__resolveType" ≠ (Step.index n).text) ∧
    (references {} "__resolveType" boxes).map (·.location.text) =
      ["boxes[0]", "boxes[0].inner", "boxes[1].section", "boxes[2]"] ∧
    references {} "__resolveType" boxes =
      ((nodes boxes).filter fun node => "__resolveType" ∉ node.location.map Step.text).filterMap
        (Node.reference? {} "__resolveType") :=
  ⟨distinctKeys_boxes, resolveType_ne_index, by decide,
    (walks_agree {} distinctKeys_boxes resolveType_ne_index).2.2.2.2⟩

end BlockCheck.Scan
