import BlockCheck.Proofs.Props.Questions
import Mathlib.Data.Finset.Card
import Mathlib.Logic.Relation

/-!
# Enough depth

Every question puts its key into the guard, and the guard answers where a key comes back. So no way of
questions is longer than the number of the keys that it can meet, and these are the texts and names
that are written at its start or in a declaration of the file.
-/

namespace BlockCheck.Props

open Source Relation

variable {outline : Outline} {s s' : Subject} {guard : Guard}

def cutOff : Answers := ⟨fun optional _ => some (.any optional), fun _ => some .empty⟩

theorem guarded_of_mem (h : s.key ∈ guard) (outline : Outline) (depth : Nat) :
    (guarded outline (depth + 1) guard).EqAt cutOff s := by
  cases s with
  | type t => exact resolve_of_mem h outline depth
  | interface i => exact interfaceMembers_of_mem h outline depth

theorem guarded_of_notMem (h : s.key ∉ guard) (outline : Outline) (depth : Nat) :
    (guarded outline (depth + 1) guard).EqAt
      (step outline (guarded outline depth (s.key :: guard))) s := by
  cases s with
  | type t => exact resolve_of_notMem h outline depth
  | interface i => exact interfaceMembers_of_notMem h outline depth

/-! ## More depth -/

namespace Answers

variable {a b c : Answers}

theorem LeAt.refl (a : Answers) (s : Subject) : a.LeAt a s := by
  cases s with
  | type t => exact fun _ => Within.refl _
  | interface i => exact Within.refl _

theorem LeAt.trans (h : a.LeAt b s) (h' : b.LeAt c s) : a.LeAt c s := by
  cases s with
  | type t => exact fun optional x hx => h' optional x (h optional x hx)
  | interface i => exact fun x hx => h' x (h x hx)

theorem DefinedAt.mono (h : a.DefinedAt s) (hle : a.LeAt b s) : b.DefinedAt s := by
  cases s with
  | type t =>
    intro optional
    obtain ⟨x, hx⟩ := Option.isSome_iff_exists.1 (h optional)
    exact Option.isSome_of_eq_some (hle optional x hx)
  | interface i =>
    obtain ⟨x, hx⟩ := Option.isSome_iff_exists.1 h
    exact Option.isSome_of_eq_some (hle x hx)

theorem DefinedAt.congr (h : a.DefinedAt s) (heq : a.EqAt b s) : b.DefinedAt s := h.mono heq.le

theorem leAt_of_none (ht : ∀ o t, a.type o t = none) (hi : ∀ i, a.interface i = none) :
    a.LeAt b s := by
  cases s with
  | type t =>
    intro optional x hx
    rw [ht] at hx
    cases hx
  | interface i =>
    intro x hx
    rw [hi] at hx
    cases hx

end Answers

theorem guarded_leAt_succ (outline : Outline) (depth : Nat) (guard : Guard) (s : Subject) :
    (guarded outline depth guard).LeAt (guarded outline (depth + 1) guard) s := by
  induction depth generalizing guard s with
  | zero => exact Answers.leAt_of_none (fun _ _ => rfl) fun _ => rfl
  | succ depth ih =>
    by_cases h : s.key ∈ guard
    · exact (guarded_of_mem h outline depth).le.trans (guarded_of_mem h outline (depth + 1)).symm.le
    · have hstep := step_leAt fun s' (_ : s' ∈ asked outline s) => ih (s.key :: guard) s'
      exact (guarded_of_notMem h outline depth).le.trans
        (hstep.trans (guarded_of_notMem h outline (depth + 1)).symm.le)

theorem guarded_leAt {depth depth' : Nat} (h : depth ≤ depth') (outline : Outline) (guard : Guard)
    (s : Subject) : (guarded outline depth guard).LeAt (guarded outline depth' guard) s := by
  induction h with
  | refl => exact .refl _ s
  | step _ ih => exact ih.trans (guarded_leAt_succ outline _ guard s)

/-! ## The number of keys -/

theorem card_filter_notMem_cons_lt {keys : Finset String} {key : String} (hkey : key ∈ keys)
    (hfree : key ∉ guard) :
    (keys.filter (· ∉ key :: guard)).card < (keys.filter (· ∉ guard)).card := by
  refine Finset.card_lt_card (Finset.ssubset_iff_of_subset ?_ |>.2 ⟨key, ?_, ?_⟩)
  · intro k hk
    simp only [Finset.mem_filter, List.mem_cons, not_or] at hk ⊢
    exact ⟨hk.1, hk.2.2⟩
  · exact Finset.mem_filter.2 ⟨hkey, hfree⟩
  · simp

/-- A resolution ends within as many steps as there are keys that it can meet outside its guard, and
one more. -/
theorem guarded_definedAt (keys : Finset String) {depth : Nat}
    (hkeys : ∀ s', ReflTransGen (Asks outline) s s' → s'.key ∈ keys)
    (hdepth : (keys.filter (· ∉ guard)).card < depth) : (guarded outline depth guard).DefinedAt s := by
  induction depth generalizing guard s with
  | zero => exact absurd hdepth (Nat.not_lt_zero _)
  | succ depth ih =>
    by_cases h : s.key ∈ guard
    · refine Answers.DefinedAt.congr ?_ (guarded_of_mem h outline depth).symm
      cases s with
      | type t => exact fun _ => rfl
      | interface i => exact rfl
    · refine (step_definedAt fun s' hs' => ?_).congr (guarded_of_notMem h outline depth).symm
      have hlt := card_filter_notMem_cons_lt (hkeys s .refl) h
      exact ih (fun s'' hs'' => hkeys s'' (.head hs' hs'')) (by omega)

/-! ## The keys that can be met -/

def keysOf : Subject → List String
  | .type t => typeTexts t
  | .interface i => interfaceKey i.name :: typeTextsOfProperties i.properties

theorem text_mem_typeTexts (t : TypeExpr) : t.text ∈ typeTexts t := by
  cases t <;> simp [typeTexts, TypeExpr.text]

theorem key_mem_keysOf (s : Subject) : s.key ∈ keysOf s := by
  cases s with
  | type t => exact text_mem_typeTexts t
  | interface i => exact List.mem_cons_self

theorem typeTexts_subset_of_mem {ts : List TypeExpr} {t : TypeExpr} (ht : t ∈ ts) :
    typeTexts t ⊆ typeTextsOfList ts := by
  induction ts with
  | nil => cases ht
  | cons u rest ih =>
    rcases List.mem_cons.1 ht with rfl | ht
    · exact List.subset_append_left _ _
    · exact List.Subset.trans (ih ht) (List.subset_append_right _ _)

theorem typeTexts_subset_of_property {properties : List Property} {p : Property} {t : TypeExpr}
    (hp : p ∈ properties) (ht : p.type = some t) : typeTexts t ⊆ typeTextsOfProperties properties := by
  induction properties with
  | nil => cases hp
  | cons q rest ih =>
    rcases List.mem_cons.1 hp with rfl | hp
    · have htexts : typeTextsOfProperty p = typeTexts t := by
        obtain ⟨_, _, _, _⟩ := p
        subst ht
        rfl
      rw [typeTextsOfProperties, htexts]
      exact List.subset_append_left _ _
    · exact List.Subset.trans (ih hp) (List.subset_append_right _ _)

theorem interfaceKey_inj {a b : String} (h : interfaceKey a = interfaceKey b) : a = b := by
  have htext : "interface ".toList ++ a.toList = "interface ".toList ++ b.toList := by
    rw [← String.toList_append, ← String.toList_append]
    exact congrArg String.toList h
  exact String.toList_inj.1 (List.append_cancel_left htext)

theorem exists_of_interface? {name : String} {i : Interface}
    (h : outline.interface? name = some i) :
    i.name = name ∧ ∃ d ∈ outline.declarations, d.body = .interface i := by
  obtain ⟨d, hd, hbody⟩ := List.exists_of_findSome?_eq_some h
  split at hbody
  · rename_i j hj
    obtain ⟨hname, rfl⟩ : j.name = name ∧ j = i := by simpa using hbody
    exact ⟨hname, d, hd, hj⟩
  · cases hbody

theorem exists_of_typeAlias? {name : String} {value : TypeExpr}
    (h : outline.typeAlias? name = some value) :
    ∃ d ∈ outline.declarations, d.body = .typeAlias name value := by
  obtain ⟨d, hd, hbody⟩ := List.exists_of_findSome?_eq_some h
  split at hbody
  · rename_i n v hv
    obtain ⟨rfl, rfl⟩ : n = name ∧ v = value := by simpa using hbody
    exact ⟨d, hd, hv⟩
  · cases hbody

theorem keysOf_interface_subset {name : String} {i : Interface}
    (h : outline.interface? name = some i) : keysOf (.interface i) ⊆ declaredKeys outline := by
  obtain ⟨-, d, hd, hbody⟩ := exists_of_interface? h
  intro key hkey
  refine List.mem_flatMap.2 ⟨d, hd, ?_⟩
  rw [hbody]
  exact hkey

theorem keysOf_alias_subset {name : String} {value : TypeExpr}
    (h : outline.typeAlias? name = some value) : keysOf (.type value) ⊆ declaredKeys outline := by
  obtain ⟨d, hd, hbody⟩ := exists_of_typeAlias? h
  intro key hkey
  refine List.mem_flatMap.2 ⟨d, hd, ?_⟩
  rw [hbody]
  exact hkey

theorem mem_askedByMembers {properties : List Property} (h : s ∈ askedByMembers properties) :
    ∃ p ∈ properties, ∃ t, p.type = some t ∧ s = .type t := by
  obtain ⟨p, hp, hs⟩ := List.mem_filterMap.1 h
  split at hs
  · cases hs
  · obtain ⟨t, ht, rfl⟩ := Option.map_eq_some_iff.1 hs
    exact ⟨p, hp, t, ht, rfl⟩

theorem mem_askedByBases {bases : List String} (h : s ∈ askedByBases outline bases) :
    ∃ base ∈ bases, ∃ i, outline.interface? base = some i ∧ s = .interface i := by
  obtain ⟨base, hbase, hs⟩ := List.mem_filterMap.1 h
  obtain ⟨i, hi, rfl⟩ := Option.map_eq_some_iff.1 hs
  exact ⟨base, hbase, i, hi, rfl⟩

theorem mem_askedByMeaning {name : String} {arguments : List TypeExpr}
    (h : s ∈ askedByMeaning (meaning outline name arguments)) :
    (∃ t ∈ arguments, s = .type t) ∨ (∃ i, outline.interface? name = some i ∧ s = .interface i) ∨
      ∃ value, outline.interface? name = none ∧ outline.typeAlias? name = some value ∧
        s = .type value := by
  unfold meaning at h
  split at h
  · cases h
  · split at h
    case h_8 =>
      split at h
      · rename_i i hi
        exact .inr (.inl ⟨i, hi, List.mem_singleton.1 h⟩)
      · rename_i hi
        split at h
        · rename_i value hvalue
          exact .inr (.inr ⟨value, hi, hvalue, List.mem_singleton.1 h⟩)
        · cases h
    all_goals first
      | cases h
        done
      | exact .inl ⟨_, List.mem_cons_self, List.mem_singleton.1 h⟩

theorem keysOf_subset_of_asks (h : Asks outline s s') :
    keysOf s' ⊆ keysOf s ++ declaredKeys outline := by
  have hmembers : ∀ properties, s' ∈ askedByMembers properties →
      keysOf s' ⊆ typeTextsOfProperties properties := by
    intro properties h
    obtain ⟨p, hp, t, ht, rfl⟩ := mem_askedByMembers h
    exact typeTexts_subset_of_property hp ht
  have hmeaning : ∀ name arguments, s' ∈ askedByMeaning (meaning outline name arguments) →
      keysOf s' ⊆ typeTextsOfList arguments ++ declaredKeys outline := by
    intro name arguments h
    rcases mem_askedByMeaning h with ⟨t, ht, rfl⟩ | ⟨i, hi, rfl⟩ | ⟨value, -, hvalue, rfl⟩
    · exact List.Subset.trans (typeTexts_subset_of_mem ht) (List.subset_append_left _ _)
    · exact List.Subset.trans (keysOf_interface_subset hi) (List.subset_append_right _ _)
    · exact List.Subset.trans (keysOf_alias_subset hvalue) (List.subset_append_right _ _)
  have hinside : ∀ {texts text : List String}, keysOf s' ⊆ texts → texts ⊆ text →
      keysOf s' ⊆ text ++ declaredKeys outline := fun h h' =>
    List.Subset.trans (List.Subset.trans h h') (List.subset_append_left _ _)
  -- The keys of what is inside a type are keys of the type; a declaration brings its own.
  cases s with
  | type t =>
    cases t with
    | predefined | null | stringLiteral | other => cases h
    | array text element =>
      obtain rfl := List.mem_singleton.1 h
      exact hinside (List.Subset.refl _) (List.subset_cons_self _ _)
    | union text operands =>
      obtain ⟨t, ht, rfl⟩ := List.mem_map.1 h
      exact hinside (typeTexts_subset_of_mem ht) (List.subset_cons_self _ _)
    | object text properties => exact hinside (hmembers properties h) (List.subset_cons_self _ _)
    | parenthesized text content =>
      obtain rfl := List.mem_singleton.1 h
      exact hinside (List.Subset.refl _) (List.subset_cons_self _ _)
    | named name => exact List.Subset.trans (hmeaning name [] h) (List.subset_append_right _ _)
    | generic text name arguments =>
      exact List.Subset.trans (hmeaning name arguments h) (List.subset_cons_self _ _)
  | interface i =>
    rcases List.mem_append.1 h with h | h
    · obtain ⟨base, -, j, hj, rfl⟩ := mem_askedByBases h
      exact List.Subset.trans (keysOf_interface_subset hj) (List.subset_append_right _ _)
    · exact hinside (hmembers i.properties h) (List.subset_cons_self _ _)

theorem keysOf_subset_of_asksAll {keys : List String} (hs : keysOf s ⊆ keys ++ declaredKeys outline)
    (h : ReflTransGen (Asks outline) s s') : keysOf s' ⊆ keys ++ declaredKeys outline := by
  induction h with
  | refl => exact hs
  | tail _ hstep ih =>
    exact List.Subset.trans (keysOf_subset_of_asks hstep)
      (List.append_subset.2 ⟨ih, List.subset_append_right _ _⟩)

/-- The depth that a file is resolved with is enough, whatever is being resolved already. -/
theorem guarded_definedAt_of_guard (guard : Guard) (keys : List String)
    (hs : keysOf s ⊆ keys ++ declaredKeys outline) :
    (guarded outline (enoughDepth outline keys) guard).DefinedAt s := by
  refine guarded_definedAt (keys ++ declaredKeys outline).toFinset (fun s' hs' => ?_) ?_
  · exact List.mem_toFinset.2 (keysOf_subset_of_asksAll hs hs' (key_mem_keysOf s'))
  · have hfilter := Finset.card_filter_le (keys ++ declaredKeys outline).toFinset (· ∉ guard)
    have hlength := (keys ++ declaredKeys outline).toFinset_card_le
    rw [enoughDepth]
    omega

theorem guarded_definedAt_enoughDepth (keys : List String)
    (hs : keysOf s ⊆ keys ++ declaredKeys outline) :
    (guarded outline (enoughDepth outline keys) []).DefinedAt s := guarded_definedAt_of_guard [] keys hs

theorem exists_interfaceMembers {name : String} {i : Interface}
    (hi : outline.interface? name = some i) (guard : Guard) :
    ∃ members, ∀ depth ≥ enoughDepth outline [], interfaceMembers outline depth guard i = some members := by
  have hdefined := @guarded_definedAt_of_guard outline (.interface i) guard [] (keysOf_interface_subset hi)
  obtain ⟨members, hmembers⟩ := Option.isSome_iff_exists.1 hdefined
  exact ⟨members, fun depth hdepth => guarded_leAt hdepth outline guard (.interface i) members hmembers⟩

end BlockCheck.Props
