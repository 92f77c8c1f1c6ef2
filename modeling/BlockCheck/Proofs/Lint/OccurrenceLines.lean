import BlockCheck.Proofs.Lint.UnusedComponents
import BlockCheck.Proofs.Text.PairLines
import Mathlib.Data.List.Perm.Subperm

/-!
# The lines of occurrences

The line that a run attaches to an occurrence is the one on which its discriminator is written, as long as
no discriminator before it names the component without being an occurrence. The lines are numbered by all
pairs that are written, the occurrences by the objects that are found.
-/

namespace BlockCheck

section Sublist

variable {α β : Type} {xs : List α} {ys zs : List β} {f : α → β} {b : β} {k : Nat} {p : β → Bool}

theorem eq_filter_of_sublist (hsub : ys.Sublist zs) (hnodup : zs.Nodup) (hp : ∀ b, p b = true ↔ b ∈ ys) :
    ys = zs.filter p := by
  have hkept : ys.Sublist (zs.filter p) := by
    rw [← List.filter_eq_self.2 fun b hb => (hp b).2 hb]
    exact hsub.filter p
  have hsubset : zs.filter p ⊆ ys := fun b hb => (hp b).1 (List.mem_filter.1 hb).2
  exact hkept.eq_of_length_le (List.subperm_of_subset (hnodup.filter p) hsubset).length_le

/-- Where a part of a list is numbered like the whole: the number is right as long as nothing before is left
out. -/
theorem exists_of_sublist (hsub : ys.Sublist (xs.map f)) (hnodup : (xs.map f).Nodup) (hb : ys[k]? = some b) :
    ∃ before own after found, xs = before ++ own :: after ∧ f own = b ∧ xs[k]? = some found ∧
      (found = own ↔ ∀ a ∈ before, f a ∈ ys) := by
  classical
  obtain ⟨p, hp⟩ : ∃ p : β → Bool, ∀ b, p b = true ↔ b ∈ ys := ⟨fun b => decide (b ∈ ys), by simp⟩
  obtain ⟨own, hown, rfl⟩ := List.mem_map.1 (hsub.subset (List.mem_of_getElem? hb))
  obtain ⟨before, after, rfl⟩ := List.append_of_mem hown
  have hkept := eq_filter_of_sublist hsub hnodup hp
  rw [List.map_append, List.map_cons, List.filter_append,
    List.filter_cons_of_pos ((hp _).2 (List.mem_of_getElem? hb))] at hkept
  -- The number counts what is kept before `own`, while the place counts all that is before it.
  have hk : k = ((before.map f).filter p).length := by
    refine (List.getElem?_inj (List.getElem?_eq_some_iff.1 hb).1 (hnodup.sublist hsub)).1 (hb.trans ?_)
    rw [hkept, List.getElem?_append_right (Nat.le_refl _), Nat.sub_self]
    rfl
  have hle : k ≤ before.length := by
    rw [hk, ← List.length_map f]
    exact List.length_filter_le _ _
  have hlt : k < (before ++ own :: after).length := by
    rw [List.length_append, List.length_cons]
    omega
  refine ⟨before, own, after, (before ++ own :: after)[k], rfl, rfl, List.getElem?_eq_getElem hlt, ?_⟩
  have hplace : (before ++ own :: after)[k] = own ↔ k = before.length := by
    rw [← List.getElem?_inj hlt hnodup.of_map, List.getElem?_eq_getElem hlt,
      List.getElem?_append_right (Nat.le_refl _), Nat.sub_self, List.getElem?_cons_zero, Option.some.injEq]
  rw [hplace, hk, ← List.length_map f, List.length_filter_eq_length_iff, List.forall_mem_map]
  exact forall₂_congr fun a _ => hp (f a)

end Sublist

namespace Json

variable {s rest : List Char} {part : Part} {ws : List Written} {v : String}

theorem Spelled.plain_string (h : Spelled (.value (.string v)) s ws rest) : Text.Plain v := by
  cases h with
  | bare hbare => exact hbare.elim
  | string hv => exact hv

theorem Spelled.plain (h : Spelled part s ws rest) :
    ∀ w ∈ ws, Text.Plain w.name ∧ ∀ v, w.value = .string v → Text.Plain v := by
  have hown {key : String} {value : Json} {t r : List Char} {ws : List Written} (hkey : Text.Plain key)
      (hvalue : Spelled (.value value) t ws r) :
      Text.Plain key ∧ ∀ v, value = .string v → Text.Plain v := by
    refine ⟨hkey, ?_⟩
    rintro v rfl
    exact hvalue.plain_string
  induction h with
  | bare | string => exact List.forall_mem_nil _
  | array _ ih | object _ ih => exact ih
  | lastItem _ _ ih => exact List.forall_mem_map.2 ih
  | item _ _ _ ih ih' => exact List.forall_mem_append.2 ⟨List.forall_mem_map.2 ih, ih'⟩
  | lastMember hkey _ hvalue _ ih => exact List.forall_mem_cons.2 ⟨hown hkey hvalue, List.forall_mem_map.2 ih⟩
  | member hkey _ hvalue _ _ ih ih' =>
    exact List.forall_mem_cons.2
      ⟨hown hkey hvalue, List.forall_mem_append.2 ⟨List.forall_mem_map.2 ih, ih'⟩⟩

/-- The line that an occurrence is given is that of its own pair unless a pair before it is no occurrence. -/
theorem Writes.exists_line {text key target : String} {document : Json} {o : Scan.Occurrence} {k : Nat}
    (h : Writes text document ws) (hdistinct : document.DistinctKeys)
    (hapart : ¬(Text.Separating key ∧ Text.Separating target))
    (ho : (Scan.occurrences key target document)[k]? = some o) :
    ∃ before own after found, ws.filter (Written.isPair key target) = before ++ own :: after ∧
      own.location = o.location ∧ (∀ w ∈ before ++ after, w.location ≠ o.location) ∧
      found ∈ before ++ own :: after ∧
      Text.pairLine? text key target k = some (Text.lineAt text.toList found.place) ∧
      (found = own ↔ ∀ w ∈ before, w.location ∈ (Scan.occurrences key target document).map (·.location)) := by
  obtain ⟨rest, hspelled, -⟩ := id h
  have hlocation : ((Scan.occurrences key target document).map (·.location))[k]? = some o.location := by
    rw [List.getElem?_map, ho, Option.map_some]
  obtain ⟨before, own, after, found, hpairs, hown, hfound, hiff⟩ :=
    exists_of_sublist (occurrences_sublist hspelled) (nodup_locations hspelled hdistinct) hlocation
  have hmem : own ∈ ws.filter (Written.isPair key target) := hpairs ▸ by simp
  obtain ⟨hwritten, hpair⟩ := List.mem_filter.1 hmem
  obtain ⟨rfl, hvalue⟩ := of_decide_eq_true hpair
  obtain ⟨hname, htext⟩ := hspelled.plain own hwritten
  have htarget : Text.Plain target := by
    cases hjson : own.value with
    | string v =>
      rw [hjson] at hvalue
      exact Option.some.inj hvalue ▸ htext v hjson
    | _ => simp [hjson, Json.string?] at hvalue
  have hothers : ∀ w ∈ before ++ after, w.location ≠ o.location := by
    intro w hw heq
    have hnodup : ((ws.filter (Written.isPair own.name target)).map (·.location)).Nodup :=
      nodup_locations hspelled hdistinct
    rw [hpairs, List.map_append, List.map_cons, List.nodup_middle, ← List.map_append, List.nodup_cons] at hnodup
    exact hnodup.1 (List.mem_map.2 ⟨w, hw, heq.trans hown.symm⟩)
  refine ⟨before, own, after, found, hpairs, hown, hothers, hpairs ▸ List.mem_of_getElem? hfound, ?_, hiff⟩
  rw [Text.pairLine?, h.pairLines_eq hname htarget hapart, List.getElem?_map, hfound, Option.map_some]

end Json

namespace Lint

variable {disk : Disk} {cwd : String} {config : Config} {target : Option String} {lint : ComponentLint}
  {c : ComponentResult} {r : OccurrenceResult}

theorem exists_of_mem_occurrences_componentsAt {paths : List String} {all : Bool}
    (hc : c ∈ (componentsAt disk cwd config paths all).components) (hr : r ∈ c.occurrences) :
    ∃ d ∈ loaded disk cwd config, ∃ props, r ∈ documentOccurrences config c.identifier props d := by
  unfold componentsAt at hc
  obtain ⟨unmarked, hunmarked, rfl⟩ := List.mem_map.1 hc
  obtain ⟨path, -, rfl⟩ := List.mem_map.1 hunmarked
  rw [occurrences_markUnused] at hr
  rw [identifier_markUnused]
  obtain ⟨d, hd, hr⟩ := List.mem_flatMap.1 hr
  exact ⟨d, hd, _, hr⟩

theorem exists_of_mem_occurrences_components (hlint : components disk cwd config target = some lint)
    (hc : c ∈ lint.components) (hr : r ∈ c.occurrences) :
    ∃ d ∈ loaded disk cwd config, ∃ props, r ∈ documentOccurrences config c.identifier props d := by
  unfold components at hlint
  split at hlint
  · cases hlint
    exact exists_of_mem_occurrences_componentsAt hc hr
  · dsimp only at hlint
    split at hlint
    · cases hlint
      exact exists_of_mem_occurrences_componentsAt hc hr
    · cases hlint

/-- Each occurrence of a run is one of a document, and its line is that of a pair of the discriminator and
the identifier, written there. It is the pair of the occurrence if and only if every such pair before it is
that of an occurrence. -/
theorem line_of_occurrence (hlint : components disk cwd config target = some lint) (hc : c ∈ lint.components)
    (hr : r ∈ c.occurrences) :
    let key := config.settings.discriminator
    ∃ d ∈ loaded disk cwd config, ∃ text document k o, d.content = .ok (text, document) ∧ r.document = d.name ∧
      (Scan.occurrences key c.identifier document)[k]? = some o ∧ r.path = o.location.text ∧
      r.line = Text.pairLine? text key c.identifier k ∧
      ('\\' ∉ text.toList → ∃ raw ws, Json.Writes text raw ws ∧ (raw.DistinctKeys → raw = document)) ∧
      ∀ ws, Json.Writes text document ws → ¬(Text.Separating key ∧ Text.Separating c.identifier) →
        ∃ before own after found, ws.filter (Json.Written.isPair key c.identifier) = before ++ own :: after ∧
          own.location = o.location ∧ (∀ w ∈ before ++ after, w.location ≠ o.location) ∧
          found ∈ before ++ own :: after ∧ r.line = some (Text.lineAt text.toList found.place) ∧
          (found = own ↔
            ∀ w ∈ before, w.location ∈ (Scan.occurrences key c.identifier document).map (·.location)) := by
  obtain ⟨d, hd, props, hr⟩ := exists_of_mem_occurrences_components hlint hc hr
  rw [documentOccurrences_eq] at hr
  cases hcontent : d.content with
  | error problem => simp [hcontent] at hr
  | ok content =>
    obtain ⟨text, document⟩ := content
    rw [hcontent] at hr
    obtain ⟨⟨o, k⟩, hitem, rfl⟩ := List.mem_map.1 hr
    obtain ⟨path, -, rfl⟩ := List.mem_map.1 hd
    have hparse := (content_load_iff.1 hcontent).2
    have ho := List.mem_zipIdx_iff_getElem?.1 hitem
    refine ⟨_, hd, text, document, k, o, hcontent, rfl, ho, rfl, rfl, Json.writes_of_parse hparse, ?_⟩
    exact fun ws hwrites hapart => hwrites.exists_line (Json.distinctKeys_of_parse hparse) hapart ho

/-! ## Buttons side by side, and one inside another -/

section Buttons

open Json (Spelled Written Writes)

def pairText (key v : String) (rest : List Char) : List Char :=
  '{' :: (Text.quotedText key ++ ':' :: (Text.quotedText v ++ '}' :: rest))

def pairWritten (key v : String) (rest : List Char) : Written :=
  ⟨[], key, .string v, Text.quotedText key ++ ':' :: (Text.quotedText v ++ '}' :: rest)⟩

theorem skipBlank_quotedText (v : String) (s : List Char) :
    Json.skipBlank (Text.quotedText v ++ s) = Text.quotedText v ++ s := rfl

theorem spelled_string {v : String} (hv : Text.Plain v) (rest : List Char) :
    Spelled (.value (.string v)) (Json.skipBlank (Text.quotedText v ++ rest)) [] rest := by
  rw [skipBlank_quotedText]
  exact .string hv

theorem spelled_pair {key v : String} (hkey : Text.Plain key) (hv : Text.Plain v) (rest : List Char) :
    Spelled (.value (.object [(key, .string v)])) (pairText key v rest) [pairWritten key v rest] rest := by
  have hcolon : Json.skipBlank (':' :: (Text.quotedText v ++ '}' :: rest)) =
      ':' :: (Text.quotedText v ++ '}' :: rest) := rfl
  refine .object ?_
  rw [skipBlank_quotedText]
  exact .lastMember hkey hcolon (spelled_string hv _) rfl

def button : Json := .object [("k", .string "s/B.ts")]

theorem spelled_button (rest : List Char) :
    Spelled (.value button) (pairText "k" "s/B.ts" rest) [pairWritten "k" "s/B.ts" rest] rest :=
  spelled_pair (by decide) (by decide) rest

def buttonsText : List Char := '[' :: pairText "k" "s/B.ts" (',' :: '\n' :: pairText "k" "s/B.ts" [']'])

def buttonsWritten : List Written :=
  [(pairWritten "k" "s/B.ts" (',' :: '\n' :: pairText "k" "s/B.ts" [']'])).under (.index 0),
    (pairWritten "k" "s/B.ts" [']']).under (.index 1)]

theorem writes_buttons : Writes (String.ofList buttonsText) (.array [button, button]) buttonsWritten := by
  refine ⟨[], ?_, rfl⟩
  rw [String.toList_ofList]
  exact .array (.item (spelled_button _) rfl (.lastItem (spelled_button _) rfl))

def buttonsDisk : Disk where
  files := [("/p/b/a.json", Text.Utf8.encode buttonsText), ("/p/s/B.ts", [])]
  directories := ["/", "/p", "/p/b", "/p/s"]

def buttonsConfig : Config :=
  ⟨"/p", "/p/b", { discriminator := "k", localPrefix := "", componentRoots := [("s", [".ts"])] }⟩

theorem parse_buttons : Json.parse (String.ofList buttonsText) = .ok (.array [button, button]) := by cbv

theorem document_of_mem_loaded {d : LoadedDocument} (hd : d ∈ loaded buttonsDisk "/" buttonsConfig)
    {text : String} {document : Json} (hcontent : d.content = .ok (text, document)) :
    text = String.ofList buttonsText ∧ document = .array [button, button] := by
  have hloaded : (loaded buttonsDisk "/" buttonsConfig).map (fun d => d.content.toOption.map Prod.fst) =
      [some (String.ofList buttonsText)] := by decide +kernel
  have hmem := List.mem_map_of_mem (f := fun d : LoadedDocument => d.content.toOption.map Prod.fst) hd
  rw [hloaded, List.mem_singleton, hcontent] at hmem
  obtain rfl : text = String.ofList buttonsText := Option.some.inj hmem
  obtain ⟨path, -, rfl⟩ := List.mem_map.1 hd
  exact ⟨rfl, Except.ok.inj ((content_load_iff.1 hcontent).2.symm.trans parse_buttons)⟩

theorem lines_of_buttons :
    components buttonsDisk "/" buttonsConfig none = some (whole buttonsDisk "/" buttonsConfig) ∧
      ∃ c ∈ (whole buttonsDisk "/" buttonsConfig).components, c.occurrences.map (·.path) = ["[0]", "[1]"] ∧
        ∀ r ∈ c.occurrences, ∃ own ∈ buttonsWritten, own.location.text = r.path ∧
          r.line = some (Text.lineAt buttonsText own.place) := by
  have hrun : (whole buttonsDisk "/" buttonsConfig).components.map
      (fun c => (c.identifier, c.occurrences.map (·.path))) = [("s/B.ts", ["[0]", "[1]"])] := by decide +kernel
  obtain ⟨c, hcomponents, hc⟩ := List.map_eq_singleton_iff.1 hrun
  obtain ⟨hidentifier, hpaths⟩ := Prod.mk.inj hc
  have hmem : c ∈ (whole buttonsDisk "/" buttonsConfig).components := hcomponents ▸ List.mem_singleton_self c
  refine ⟨rfl, c, hmem, hpaths, fun r hr => ?_⟩
  obtain ⟨d, hd, text, document, k, o, hcontent, -, -, hpath, -, -, hline⟩ :=
    line_of_occurrence (components_none buttonsDisk "/" buttonsConfig) hmem hr
  obtain ⟨rfl, rfl⟩ := document_of_mem_loaded hd hcontent
  rw [hidentifier] at hline
  obtain ⟨before, own, after, found, hpairs, hown, -, -, hfound, hiff⟩ :=
    hline buttonsWritten writes_buttons (by decide)
  have hwritten {w : Written} (hw : w ∈ before ++ own :: after) : w ∈ buttonsWritten :=
    (List.mem_filter.1 (hpairs ▸ hw)).1
  refine ⟨own, hwritten (by simp), hpath ▸ congrArg Location.text hown, ?_⟩
  have hall : ∀ w ∈ buttonsWritten,
      w.location ∈ (Scan.occurrences "k" "s/B.ts" (.array [button, button])).map (·.location) := by
    decide +kernel
  rw [hfound, hiff.2 fun w hw => hall w (hwritten (List.mem_append_left _ hw)), String.toList_ofList]

def outerText (rest : List Char) : List Char :=
  '{' :: (Text.quotedText "k" ++ ':' :: (Text.quotedText "s/B.ts" ++ ',' ::
    (Text.quotedText "c" ++ ':' :: pairText "k" "s/B.ts" ('}' :: rest))))

def outer : Json := .object [("k", .string "s/B.ts"), ("c", button)]

theorem spelled_outer (rest : List Char) : ∃ ws, Spelled (.value outer) (outerText rest) ws rest := by
  have hcaption : Spelled (.members [("c", button)])
      (Json.skipBlank (Text.quotedText "c" ++ ':' :: pairText "k" "s/B.ts" ('}' :: rest))) _ rest :=
    .lastMember (by decide) rfl (spelled_button _) rfl
  exact ⟨_, .object (.member (by decide) rfl (spelled_string (by decide) _) rfl hcaption)⟩

def nestedText : List Char := '[' :: outerText (',' :: '\n' :: pairText "k" "s/B.ts" [']'])

/-- The line of the second button that is found is that of the caption. -/
theorem caption_for_second_button :
    ∃ document ws o own, Json.parse (String.ofList nestedText) = .ok document ∧
      Writes (String.ofList nestedText) document ws ∧
      (Scan.occurrences "k" "s/B.ts" document)[1]? = some o ∧
      own ∈ ws ∧ own.isPair "k" "s/B.ts" = true ∧ own.location = o.location ∧
      Text.lineAt nestedText own.place = 2 ∧
      Text.pairLine? (String.ofList nestedText) "k" "s/B.ts" 1 = some 1 := by
  obtain ⟨ws, hws⟩ := spelled_outer (',' :: '\n' :: pairText "k" "s/B.ts" [']'])
  have hwrites : Spelled (.value (.array [outer, button])) nestedText _ [] :=
    .array (.item hws rfl (.lastItem (spelled_button [']']) rfl))
  refine ⟨_, _, ⟨[.index 1], []⟩, (pairWritten "k" "s/B.ts" [']']).under (.index 1), by cbv,
    ⟨[], by rw [String.toList_ofList]; exact hwrites, rfl⟩, rfl, by simp, rfl, rfl, ?_, ?_⟩
  · decide
  · decide

end Buttons

end Lint

end BlockCheck
