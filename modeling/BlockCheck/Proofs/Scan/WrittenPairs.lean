import BlockCheck.Proofs.Json.Written
import BlockCheck.Proofs.Scan.Walks

/-!
# Discriminators as they are written

The occurrences of a component are pairs of the discriminator and its identifier, in the order in which the
pairs are written. A pair that is no occurrence stands inside one, or at a discriminator.
-/

namespace BlockCheck

namespace Json

variable {s rest : List Char} {part : Part} {ws : List Written} {w : Written} {key target : String}

def Written.isPair (key target : String) (w : Written) : Bool := w.name = key ∧ w.value.string? = some target

def Part.occurrences (key target : String) : Part → List Scan.Occurrence
  | .value j => Scan.occurrences key target j
  | .items n js => Scan.itemOccurrences key target n js
  | .members ms => Scan.memberOccurrences key target ms

def Part.DistinctKeys : Part → Prop
  | .value j => j.DistinctKeys
  | .items _ js => ∀ j ∈ js, j.DistinctKeys
  | .members ms => (Record.keys ms).Nodup ∧ ∀ m ∈ ms, m.2.DistinctKeys

theorem filter_under (step : Step) (ws : List Written) :
    ((ws.map (Written.under step)).filter (Written.isPair key target)).map (·.location) =
      ((ws.filter (Written.isPair key target)).map (·.location)).map (step :: ·) := by
  rw [List.filter_map, List.map_map, List.map_map]
  rfl

theorem occurrences_under (step : Step) (os : List Scan.Occurrence) :
    (os.map (Scan.Occurrence.under step)).map (·.location) = (os.map (·.location)).map (step :: ·) := by
  rw [List.map_map, List.map_map]
  rfl

/-! ## Occurrences among the pairs -/

theorem exists_written_of_mem {members : List (String × Json)} (h : Spelled (.members members) s ws rest)
    {m : String × Json} (hm : m ∈ members) : ∃ w ∈ ws, w.location = [] ∧ w.name = m.1 ∧ w.value = m.2 := by
  generalize hpart : Part.members members = part at h
  induction h generalizing members with
  | bare | string | array | object | lastItem | item => cases hpart
  | lastMember =>
    cases hpart
    rw [List.mem_singleton.1 hm]
    exact ⟨_, List.mem_cons_self, rfl, rfl, rfl⟩
  | member _ _ _ _ _ _ ih =>
    cases hpart
    rcases List.mem_cons.1 hm with rfl | hm
    · exact ⟨_, List.mem_cons_self, rfl, rfl, rfl⟩
    · obtain ⟨w, hw, heq⟩ := ih hm rfl
      exact ⟨w, List.mem_cons_of_mem _ (List.mem_append_right _ hw), heq⟩

theorem single_sublist {value : Json}
    (h : ((Scan.occurrences key target value).map (·.location)).Sublist
      ((ws.filter (Written.isPair key target)).map (·.location))) (name : String) :
    ((Scan.singleMemberOccurrences key target (name, value)).map (·.location)).Sublist
      (((ws.map (Written.under (.key name))).filter (Written.isPair key target)).map (·.location)) := by
  rw [Scan.singleMemberOccurrences]
  split
  · exact List.nil_sublist _
  · rw [occurrences_under, filter_under]
    exact h.map _

theorem occurrences_sublist (h : Spelled part s ws rest) :
    ((part.occurrences key target).map (·.location)).Sublist
      ((ws.filter (Written.isPair key target)).map (·.location)) := by
  induction h with
  | @bare value _ _ hvalue =>
    have hnone : Scan.occurrences key target value = [] := by
      cases value with
      | array items =>
        obtain rfl : items = [] := hvalue
        rfl
      | object members =>
        obtain rfl : members = [] := hvalue
        rfl
      | _ => rfl
    rw [Part.occurrences, hnone]
    exact List.nil_sublist _
  | string => exact List.nil_sublist _
  | array _ ih => exact ih
  | @object members _ _ ws hmembers ih =>
    rw [Part.occurrences, Scan.occurrences]
    split
    · -- The search stops at a match, and only the pair of the match itself is an occurrence.
      rename_i hhere
      obtain ⟨w, hw, hlocation, hname, hvalue⟩ :=
        exists_written_of_mem hmembers (Record.mem_of_lookup (Scan.bind_string?_eq_some_iff.1 hhere))
      have hpair : w.isPair key target = true := by simp [Written.isPair, hname, hvalue, Json.string?]
      have hmem := List.mem_map_of_mem (f := (·.location)) (List.mem_filter.2 ⟨hw, hpair⟩)
      rw [hlocation] at hmem
      exact List.singleton_sublist.2 hmem
    · exact ih
  | lastItem _ _ ih =>
    rw [Part.occurrences, Scan.itemOccurrences, Scan.itemOccurrences, List.append_nil, occurrences_under,
      filter_under]
    exact ih.map _
  | item _ _ _ ih ih' =>
    rw [Part.occurrences, Scan.itemOccurrences, List.map_append, List.filter_append, List.map_append,
      occurrences_under, filter_under]
    exact (ih.map _).append ih'
  | lastMember _ _ _ _ ih =>
    rw [Part.occurrences, Scan.memberOccurrences, Scan.memberOccurrences, List.append_nil]
    exact (single_sublist ih _).trans ((List.sublist_cons_self _ _).filter _ |>.map _)
  | member _ _ _ _ _ ih ih' =>
    rw [Part.occurrences, Scan.memberOccurrences, List.map_append]
    -- The pair of the member itself belongs to the object, and may not be an occurrence.
    refine ((single_sublist ih _).append ih').trans ?_
    rw [← List.map_append, ← List.filter_append]
    exact (List.sublist_cons_self _ _).filter _ |>.map _

/-! ## One pair for each object -/

/-- Where members are written: those of the items or members that are left. -/
def Part.Covers (w : Written) : Part → Prop
  | .value _ => True
  | .items n _ => ∃ m ≥ n, ∃ location, w.location = .index m :: location
  | .members ms => w.location = [] ∧ w.name ∈ Record.keys ms ∨
      ∃ name ∈ Record.keys ms, ∃ location, w.location = .key name :: location

theorem covers_of_mem (h : Spelled part s ws rest) (hw : w ∈ ws) : part.Covers w := by
  induction h with
  | bare | string | array | object => trivial
  | lastItem =>
    obtain ⟨inner, -, rfl⟩ := List.mem_map.1 hw
    exact ⟨_, Nat.le_refl _, inner.location, rfl⟩
  | item _ _ _ _ ih =>
    rcases List.mem_append.1 hw with hw | hw
    · obtain ⟨inner, -, rfl⟩ := List.mem_map.1 hw
      exact ⟨_, Nat.le_refl _, inner.location, rfl⟩
    · obtain ⟨m, hm, hlocation⟩ := ih hw
      exact ⟨m, Nat.le_of_succ_le hm, hlocation⟩
  | lastMember =>
    rcases List.mem_cons.1 hw with rfl | hw
    · exact Or.inl ⟨rfl, List.mem_cons_self⟩
    · obtain ⟨inner, -, rfl⟩ := List.mem_map.1 hw
      exact Or.inr ⟨_, List.mem_cons_self, inner.location, rfl⟩
  | member _ _ _ _ _ _ ih =>
    rcases List.mem_cons.1 hw with rfl | hw
    · exact Or.inl ⟨rfl, List.mem_cons_self⟩
    rcases List.mem_append.1 hw with hw | hw
    · obtain ⟨inner, -, rfl⟩ := List.mem_map.1 hw
      exact Or.inr ⟨_, List.mem_cons_self, inner.location, rfl⟩
    · rcases ih hw with ⟨hlocation, hname⟩ | ⟨name, hname, hlocation⟩
      · exact Or.inl ⟨hlocation, List.mem_cons_of_mem _ hname⟩
      · exact Or.inr ⟨name, List.mem_cons_of_mem _ hname, hlocation⟩

def Written.spot (w : Written) : Location × String := (w.location, w.name)

theorem nodup_under (step : Step) (h : (ws.map Written.spot).Nodup) :
    ((ws.map (Written.under step)).map Written.spot).Nodup := by
  have hspots : (ws.map (Written.under step)).map Written.spot =
      (ws.map Written.spot).map fun spot => (step :: spot.1, spot.2) := by
    rw [List.map_map, List.map_map]
    rfl
  rw [hspots]
  refine h.map fun a b heq => ?_
  obtain ⟨hlocation, hname⟩ := Prod.mk.inj heq
  exact Prod.ext (List.cons.inj hlocation).2 hname

theorem nodup_own_under {key : String} {value : Json} {place : List Char}
    (h : (ws.map Written.spot).Nodup) :
    (((⟨[], key, value, place⟩ : Written) :: ws.map (Written.under (.key key))).map Written.spot).Nodup := by
  rw [List.map_cons, List.nodup_cons]
  refine ⟨fun hmem => ?_, nodup_under _ h⟩
  obtain ⟨w, hw, heq⟩ := List.mem_map.1 hmem
  obtain ⟨inner, -, rfl⟩ := List.mem_map.1 hw
  exact List.cons_ne_nil _ _ (Prod.mk.inj heq).1

theorem nodup_spots (h : Spelled part s ws rest) (hdistinct : part.DistinctKeys) :
    (ws.map Written.spot).Nodup := by
  induction h with
  | bare | string => exact List.nodup_nil
  | array _ ih =>
    cases hdistinct with
    | array hitems => exact ih hitems
  | object _ ih =>
    cases hdistinct with
    | object hkeys hmembers => exact ih ⟨hkeys, hmembers⟩
  | lastItem _ _ ih => exact nodup_under _ (ih (hdistinct _ List.mem_cons_self))
  | item _ _ hitems ih ih' =>
    obtain ⟨hfirst, hothers⟩ := List.forall_mem_cons.1 hdistinct
    rw [List.map_append, List.nodup_append]
    refine ⟨nodup_under _ (ih hfirst), ih' hothers, ?_⟩
    -- What is in the first item begins with its index, and what is in the others with a later one.
    intro a ha b hb heq
    obtain ⟨w, hw, rfl⟩ := List.mem_map.1 ha
    obtain ⟨w', hw', rfl⟩ := List.mem_map.1 hb
    obtain ⟨inner, -, rfl⟩ := List.mem_map.1 hw
    obtain ⟨m, hm, location, hlocation⟩ := covers_of_mem hitems hw'
    have hindex := (Prod.mk.inj heq).1
    rw [hlocation] at hindex
    have : _ = m := Step.index.inj (List.cons.inj hindex).1
    omega
  | lastMember _ _ _ _ ih => exact nodup_own_under (ih (hdistinct.2 _ List.mem_cons_self))
  | member _ _ _ _ hmembers ih ih' =>
    obtain ⟨hkeys, hvalues⟩ := hdistinct
    obtain ⟨hfresh, hkeys⟩ := List.nodup_cons.1 hkeys
    obtain ⟨hfirst, hothers⟩ := List.forall_mem_cons.1 hvalues
    rw [← List.cons_append, List.map_append, List.nodup_append]
    refine ⟨nodup_own_under (ih hfirst), ih' ⟨hkeys, hothers⟩, ?_⟩
    intro a ha b hb heq
    obtain ⟨w, hw, rfl⟩ := List.mem_map.1 ha
    obtain ⟨w', hw', rfl⟩ := List.mem_map.1 hb
    obtain ⟨hlocation, hname⟩ := Prod.mk.inj heq
    -- What is at the first name or below it is not at the others, which are different names.
    rcases List.mem_cons.1 hw with rfl | hw
    · rcases covers_of_mem hmembers hw' with ⟨-, hmem⟩ | ⟨name, hmem, location, hnested⟩
      · rw [← hname] at hmem
        exact hfresh hmem
      · exact List.cons_ne_nil _ _ (hnested.symm.trans hlocation.symm)
    · obtain ⟨inner, -, rfl⟩ := List.mem_map.1 hw
      rcases covers_of_mem hmembers hw' with ⟨hown, -⟩ | ⟨name, hmem, location, hnested⟩
      · exact List.cons_ne_nil _ _ (hlocation.trans hown)
      · have hsteps := hlocation.trans hnested
        rw [← Step.key.inj (List.cons.inj hsteps).1] at hmem
        exact hfresh hmem

theorem nodup_locations (h : Spelled part s ws rest) (hdistinct : part.DistinctKeys) :
    ((ws.filter (Written.isPair key target)).map (·.location)).Nodup := by
  have hspots : (ws.filter (Written.isPair key target)).map Written.spot =
      ((ws.filter (Written.isPair key target)).map (·.location)).map fun location => (location, key) := by
    rw [List.map_map]
    refine List.map_congr_left fun w hw => ?_
    have hname : w.name = key := (of_decide_eq_true (List.mem_filter.1 hw).2).1
    exact congrArg (w.location, ·) hname
  have hsublist : ((ws.filter (Written.isPair key target)).map Written.spot).Sublist (ws.map Written.spot) :=
    List.filter_sublist.map Written.spot
  have hnodup := (nodup_spots h hdistinct).sublist hsublist
  rw [hspots] at hnodup
  exact hnodup.of_map

end Json

end BlockCheck
