import BlockCheck.Proofs.Scan.WrittenPairs

/-!
# The lines of written pairs

In a text without escapes a pair of a key and a value is found where it is written, and nowhere else. What
could be in the way is a key that looks like the text between two strings: it may seem to begin where a
string ends.
-/

namespace BlockCheck.Text

theorem quotedText_append (v : String) (s : List Char) : quotedText v ++ s = '"' :: (v.toList ++ '"' :: s) := by
  simp [quotedText_eq]

/-- What stands behind a string: the next character that is no white space tells the strings apart. -/
def Separated (s : List Char) : Prop := ∀ c ∈ (s.dropWhile isBlank).head?, c ∈ [',', ':', ']', '}']

inductive Quoted : List Char → Prop
  | nil : Quoted []
  | other {c : Char} {s : List Char} : c ≠ '"' → Quoted s → Quoted (c :: s)
  | string {body s : List Char} : '"' ∉ body → Separated s → Quoted s → Quoted ('"' :: (body ++ '"' :: s))

def Separating (s : String) : Prop := ∃ c ∈ (s.toList.dropWhile isBlank).head?, c ∈ [',', ':', ']', '}']

instance (s : String) : Decidable (Separating s) :=
  decidable_of_iff ((s.toList.dropWhile isBlank).head?.any (· ∈ [',', ':', ']', '}'])) <| by
    simp only [Option.any_eq_true, decide_eq_true_eq]
    rfl

/-- The line on which the last part of a text begins. -/
def lineAt (whole place : List Char) : Nat := (whole.take (whole.length - place.length)).count '\n' + 1

variable {key value v : String} {c : Char} {s t rest whole body : List Char}

/-! ## Where a string ends -/

theorem Ended.separated (h : Ended s) : Separated s := by
  intro c hc
  have hmem := h c hc
  simp only [List.mem_cons, List.not_mem_nil, or_false] at hmem ⊢
  tauto

theorem dropPrefix?_eq_some_iff {start : List Char} : dropPrefix? start s = some rest ↔ s = start ++ rest := by
  unfold dropPrefix?
  constructor
  · intro h
    split at h
    · rename_i hprefix
      obtain ⟨more, rfl⟩ := List.isPrefixOf_iff_prefix.1 hprefix
      rw [List.drop_left] at h
      rw [Option.some.inj h]
    · cases h
  · rintro rfl
    simp

theorem separating_of_append (hs : Separated s) (h : s = key.toList ++ '"' :: rest) : Separating key := by
  subst h
  unfold Separated at hs
  rw [List.dropWhile_append] at hs
  split at hs
  · have hmem := hs '"' (by rw [List.dropWhile_cons_of_neg (by decide)]; rfl)
    exact absurd hmem (by decide)
  · rename_i hother
    cases hkey : key.toList.dropWhile isBlank with
    | nil => simp [hkey] at hother
    | cons d more =>
      rw [hkey] at hs
      exact ⟨d, by simp [hkey], hs d rfl⟩

theorem Quoted.exists_string {front : List Char} (h : Quoted (front ++ '"' :: rest)) (hfront : '"' ∉ front) :
    ∃ body s, rest = body ++ '"' :: s ∧ '"' ∉ body ∧ Separated s ∧ Quoted s := by
  induction front with
  | nil =>
    cases h with
    | other hc _ => exact absurd rfl hc
    | string hbody hs hquoted => exact ⟨_, _, rfl, hbody, hs, hquoted⟩
  | cons c front ih =>
    obtain ⟨hc, hfront⟩ := List.ne_and_not_mem_of_not_mem_cons hfront
    rw [List.cons_append] at h
    generalize hlist : front ++ '"' :: rest = l at h
    cases h with
    | other _ h => exact ih (hlist ▸ h) hfront
    | string => exact absurd rfl hc

theorem after_quote_inj {front front' : List Char} (hfront : '"' ∉ front) (hfront' : '"' ∉ front')
    (h : front ++ '"' :: s = front' ++ '"' :: t) : s = t := by
  have hdrop (p r : List Char) (hp : '"' ∉ p) : (p ++ '"' :: r).dropWhile (· ≠ '"') = '"' :: r := by
    rw [List.dropWhile_append_of_pos]
    · simp
    · intro c hc
      exact decide_eq_true fun heq => hp (heq ▸ hc)
  have heq := congrArg (List.dropWhile (· ≠ '"')) h
  rw [hdrop _ _ hfront, hdrop _ _ hfront'] at heq
  exact (List.cons.inj heq).2

theorem exists_gap {after : List Char} (h : afterPair? key value s = some after) :
    ∃ gap, IsColon gap ∧ s = quotedText key ++ (gap ++ (quotedText value ++ after)) := by
  obtain ⟨x, hx, h⟩ := Option.bind_eq_some_iff.1 h
  obtain ⟨y, hy, h⟩ := Option.bind_eq_some_iff.1 h
  rw [dropPrefix?_eq_some_iff] at hx hy h
  have hblank (l : List Char) : ∀ c ∈ l.takeWhile isBlank, isBlank c = true := fun _ => List.mem_takeWhile_imp
  refine ⟨x.takeWhile isBlank ++ ':' :: y.takeWhile isBlank, ⟨_, _, rfl, hblank x, hblank y⟩, ?_⟩
  rw [List.append_assoc, List.cons_append, ← h, List.takeWhile_append_dropWhile, ← List.singleton_append, ← hy,
    List.takeWhile_append_dropWhile, hx]

theorem afterPair?_of_separated (hs : Separated s) (hquoted : Quoted s) (hkey : Plain key)
    (hapart : ¬(Separating key ∧ Separating value)) : afterPair? key value ('"' :: s) = none := by
  rw [← Option.not_isSome_iff_eq_none]
  intro hsome
  obtain ⟨after, hafter⟩ := Option.isSome_iff_exists.1 hsome
  obtain ⟨gap, hgap, hsplit⟩ := exists_gap hafter
  obtain rfl : s = key.toList ++ '"' :: (gap ++ (quotedText value ++ after)) := by
    rw [quotedText_append] at hsplit
    exact (List.cons.inj hsplit).2
  -- The key ends where the next string begins, so the value begins where that one ends.
  obtain ⟨body, rest, hbody, hfree, hrest, -⟩ := hquoted.exists_string fun hmem => (hkey '"' hmem).1 rfl
  have hvalue : rest = value.toList ++ '"' :: after := by
    refine after_quote_inj hfree (fun hmem => hgap.no_quote '"' hmem rfl) (hbody.symm.trans ?_)
    simp [quotedText_eq]
  exact hapart ⟨separating_of_append hs rfl, separating_of_append hrest hvalue⟩

/-! ## Lines counted from the beginning -/

theorem lineAt_append (p : List Char) (h : p ++ s <:+ whole) :
    lineAt whole (p ++ s) + p.count '\n' = lineAt whole s := by
  obtain ⟨front, rfl⟩ := h
  have htake (front s : List Char) : (front ++ s).take ((front ++ s).length - s.length) = front := by
    rw [List.length_append, Nat.add_sub_cancel, List.take_left]
  have hback := htake (front ++ p) s
  rw [List.append_assoc] at hback
  rw [lineAt, lineAt, htake, hback, List.count_append]
  omega

def linesIn (key value : String) (whole s : List Char) : List Nat := pairLinesFrom key value 0 (lineAt whole s) s

theorem linesIn_cons (hnone : afterPair? key value (c :: s) = none) (h : c :: s <:+ whole) :
    linesIn key value whole (c :: s) = linesIn key value whole s := by
  rw [linesIn, pairLinesFrom_cons hnone, linesIn]
  congr 1
  exact lineAt_append [c] h

theorem linesIn_append {p : List Char} (hp : '"' ∉ p) (h : p ++ s <:+ whole) :
    linesIn key value whole (p ++ s) = linesIn key value whole s := by
  have hquote : ∀ c ∈ p, c ≠ '"' := by
    rintro c hc rfl
    exact hp hc
  rw [linesIn, pairLinesFrom_no_quote hquote, lineAt_append p h, linesIn]

theorem linesIn_of_skips (hskips : Json.SkipsTo s t) (h : s <:+ whole) :
    linesIn key value whole s = linesIn key value whole t := by
  obtain ⟨p, hp, rfl⟩ := hskips
  exact linesIn_append hp h

theorem linesIn_of_pair (hpair : afterPair? key value s = some t) (h : s <:+ whole) :
    linesIn key value whole s = lineAt whole s :: linesIn key value whole t := by
  obtain ⟨gap, -, hsplit⟩ := exists_gap hpair
  obtain ⟨p, rfl⟩ : ∃ p, s = '"' :: (p ++ t) := by
    refine ⟨key.toList ++ ['"'] ++ gap ++ quotedText value, ?_⟩
    rw [hsplit]
    simp [quotedText_eq]
  have hline : lineAt whole ('"' :: (p ++ t)) + ('"' :: p).count '\n' = lineAt whole t :=
    lineAt_append ('"' :: p) h
  rw [linesIn, pairLinesFrom, hpair]
  dsimp only
  rw [List.length_append, Nat.add_sub_cancel, pairLinesFrom_skip, count_cons, hline, linesIn]

theorem linesIn_quotedText (hv : Plain v) (hopen : afterPair? key value (quotedText v ++ s) = none)
    (hs : Separated s) (hquoted : Quoted s) (hkey : Plain key) (hapart : ¬(Separating key ∧ Separating value))
    (h : quotedText v ++ s <:+ whole) :
    linesIn key value whole (quotedText v ++ s) = linesIn key value whole s := by
  rw [quotedText_append] at hopen h ⊢
  have hbody := (List.suffix_cons '"' _).trans h
  have hclose := (List.suffix_append v.toList _).trans hbody
  rw [linesIn_cons hopen h, linesIn_append (fun hmem => (hv '"' hmem).1 rfl) hbody,
    linesIn_cons (afterPair?_of_separated hs hquoted hkey hapart) hclose]

/-! ## What follows what is written -/

theorem isBlank_of_json (h : Json.isBlank c = true) : isBlank c = true := by
  simp only [Json.isBlank, Bool.or_eq_true, decide_eq_true_eq] at h
  rcases h with ((rfl | rfl) | rfl) | rfl <;> decide

theorem dropWhile_isBlank (h : Json.skipBlank s = c :: rest) (hc : isBlank c = false) :
    s.dropWhile isBlank = c :: rest := by
  rw [← List.takeWhile_append_dropWhile (p := Json.isBlank) (l := s), List.dropWhile_append_of_pos]
  · unfold Json.skipBlank at h
    rw [h, List.dropWhile_cons_of_neg (by simp [hc])]
  · exact fun d hd => isBlank_of_json (List.mem_takeWhile_imp hd)

theorem ended_of_skipBlank (h : Json.skipBlank s = c :: rest) (hc : c ∈ [',', ']', '}']) : Ended s := by
  have hblank : isBlank c = false := by
    simp only [List.mem_cons, List.not_mem_nil, or_false] at hc
    rcases hc with rfl | rfl | rfl <;> decide
  unfold Ended
  rw [dropWhile_isBlank h hblank]
  rintro _ ⟨⟩
  exact hc

theorem separated_of_colon (h : Json.skipBlank s = ':' :: rest) : Separated s := by
  unfold Separated
  rw [dropWhile_isBlank h (by decide)]
  rintro _ ⟨⟩
  decide

theorem exists_colon (h : Json.skipBlank s = ':' :: t) : ∃ gap, IsColon gap ∧ s = gap ++ Json.skipBlank t := by
  have hblank (l : List Char) : ∀ c ∈ l.takeWhile Json.isBlank, isBlank c = true := fun _ hc =>
    isBlank_of_json (List.mem_takeWhile_imp hc)
  refine ⟨s.takeWhile Json.isBlank ++ ':' :: t.takeWhile Json.isBlank, ⟨_, _, rfl, hblank s, hblank t⟩, ?_⟩
  unfold Json.skipBlank at h ⊢
  rw [List.append_assoc, List.cons_append, List.takeWhile_append_dropWhile, ← h, List.takeWhile_append_dropWhile]

namespace Quoted

theorem of_skips (hskips : Json.SkipsTo s t) (h : Quoted t) : Quoted s := by
  obtain ⟨p, hp, rfl⟩ := hskips
  induction p with
  | nil => exact h
  | cons c p ih =>
    obtain ⟨hc, hp⟩ := List.ne_and_not_mem_of_not_mem_cons hp
    exact .other (Ne.symm hc) (ih hp)

theorem of_separator (h : Json.skipBlank s = c :: t) (hc : c ≠ '"') (ht : Quoted (Json.skipBlank t)) : Quoted s :=
  (ht.of_skips (Json.skipsTo_skipBlank t)).of_skips (Json.skipBlank_cons h hc)

theorem quotedText (hv : Plain v) (hs : Separated s) (h : Quoted s) : Quoted (quotedText v ++ s) := by
  rw [quotedText_append]
  exact .string (fun hmem => (hv '"' hmem).1 rfl) hs h

end Quoted

end BlockCheck.Text

namespace BlockCheck.Json

open Text (Plain Ended Separated Quoted Separating lineAt linesIn)

variable {key target : String} {j : Json} {s rest whole : List Char} {part : Part} {ws : List Written}

/-- What may follow the part. -/
def Part.EndedBy (rest : List Char) : Part → Prop
  | .value _ => Ended rest
  | _ => True

theorem Spelled.quoted (h : Spelled part s ws rest) (hrest : Quoted rest) (hend : part.EndedBy rest) :
    Quoted s := by
  induction h with
  | bare _ _ hskips _ => exact hrest.of_skips hskips
  | string hv => exact hrest.quotedText hv (Ended.separated hend)
  | array _ ih | object _ ih =>
    exact .other (by decide) ((ih hrest trivial).of_skips (skipsTo_skipBlank _))
  | lastItem _ hclose ih =>
    exact ih (hrest.of_skips (skipBlank_cons hclose (by decide))) (Text.ended_of_skipBlank hclose (by decide))
  | item _ hcomma _ ih ih' =>
    exact ih (.of_separator hcomma (by decide) (ih' hrest trivial)) (Text.ended_of_skipBlank hcomma (by decide))
  | lastMember hkey hcolon _ hclose ih =>
    have hvalue := ih (hrest.of_skips (skipBlank_cons hclose (by decide)))
      (Text.ended_of_skipBlank hclose (by decide))
    exact (Quoted.of_separator hcolon (by decide) hvalue).quotedText hkey (Text.separated_of_colon hcolon)
  | member hkey hcolon _ hcomma _ ih ih' =>
    have hvalue := ih (.of_separator hcomma (by decide) (ih' hrest trivial))
      (Text.ended_of_skipBlank hcomma (by decide))
    exact (Quoted.of_separator hcolon (by decide) hvalue).quotedText hkey (Text.separated_of_colon hcolon)

/-! ## The pairs that are found -/

theorem Spelled.head (h : Spelled (.value j) s ws rest) : ∀ c ∈ s.head?, Text.isBlank c = false := by
  cases h with
  | bare _ hhead _ _ => exact fun c hc => (hhead c hc).2
  | string | array | object =>
    rintro _ ⟨⟩
    decide

theorem Spelled.dropPrefix? (h : Spelled (.value j) s ws rest) (htarget : Plain target) :
    Text.dropPrefix? (Text.quotedText target) s = if j.string? = some target then some rest else none := by
  have hother {s : List Char} (hs : ∀ c ∈ s.head?, c ≠ '"') :
      Text.dropPrefix? (Text.quotedText target) s = none := by
    cases s with
    | nil => rfl
    | cons c s =>
      have hc : c ≠ '"' := hs c rfl
      simp [Text.dropPrefix?, Text.quotedText_eq, Ne.symm hc]
  cases h with
  | bare hbare hhead _ _ =>
    have hnone : j.string? = none := by
      cases j with
      | string => exact hbare.elim
      | _ => rfl
    rw [hother fun c hc => (hhead c hc).1, hnone, if_neg (by simp)]
  | @string v _ hv =>
    rw [Text.quotedText_append, Text.dropPrefix?_string hv.isBody htarget]
    simp [Json.string?, String.toList_inj]
  | array | object =>
    rw [hother, if_neg (by simp [Json.string?])]
    rintro _ ⟨⟩
    decide

theorem Spelled.eq_nil_of_string? (h : Spelled (.value j) s ws rest) (hj : j.string? = some target) : ws = [] := by
  cases h with
  | bare | string => rfl
  | array | object => simp [Json.string?] at hj

theorem filter_under_place (step : Step) (ws : List Written) :
    ((ws.map (Written.under step)).filter (Written.isPair key target)).map (fun w => lineAt whole w.place) =
      (ws.filter (Written.isPair key target)).map fun w => lineAt whole w.place := by
  rw [List.filter_map, List.map_map]
  rfl

section Found

variable (hkey : Plain key) (htarget : Plain target) (hapart : ¬(Separating key ∧ Separating target))

include hkey htarget hapart

theorem linesIn_member {name : String} {r t r' : List Char} (hname : Plain name)
    (hcolon : skipBlank r = ':' :: t) (hvalue : Spelled (.value j) (skipBlank t) ws r')
    (hwhole : Text.quotedText name ++ r <:+ whole) (hquoted : Quoted r)
    (ih : linesIn key target whole (skipBlank t) =
      (ws.filter (Written.isPair key target)).map (fun w => lineAt whole w.place) ++ linesIn key target whole r') :
    linesIn key target whole (Text.quotedText name ++ r) =
      (((⟨[], name, j, Text.quotedText name ++ r⟩ : Written) :: ws.map (Written.under (.key name))).filter
        (Written.isPair key target)).map (fun w => lineAt whole w.place) ++ linesIn key target whole r' := by
  obtain ⟨gap, hgap, hr⟩ := Text.exists_colon hcolon
  have hafter := Text.afterPair?_key hname hkey hgap hvalue.head target
  rw [← hr, hvalue.dropPrefix? htarget, ← ite_and] at hafter
  by_cases hpair : name = key ∧ j.string? = some target
  · rw [if_pos hpair] at hafter
    rw [Text.linesIn_of_pair hafter hwhole, hvalue.eq_nil_of_string? hpair.2,
      List.filter_cons_of_pos (by simpa [Written.isPair] using hpair)]
    rfl
  · rw [if_neg hpair] at hafter
    have hsuffix : r <:+ whole := (List.suffix_append _ _).trans hwhole
    have hskips : SkipsTo r (skipBlank t) :=
      (skipBlank_cons hcolon (by decide)).trans (skipsTo_skipBlank t)
    rw [Text.linesIn_quotedText hname hafter (Text.separated_of_colon hcolon) hquoted hkey hapart hwhole,
      Text.linesIn_of_skips hskips hsuffix, ih, List.filter_cons_of_neg (by simpa [Written.isPair] using hpair),
      filter_under_place]

theorem Spelled.linesIn_eq (h : Spelled part s ws rest) (hwhole : s <:+ whole) (hrest : Quoted rest)
    (hend : part.EndedBy rest) :
    linesIn key target whole s =
      (ws.filter (Written.isPair key target)).map (fun w => lineAt whole w.place) ++
        linesIn key target whole rest := by
  -- What follows has to be told apart from strings too: a quote in it may belong to a pair.
  induction h with
  | bare _ _ hskips _ => exact Text.linesIn_of_skips hskips hwhole
  | @string v _ hv =>
    have hopen := Text.afterPair?_of_ended hv.isBody hend hkey target
    rw [← Text.quotedText_append] at hopen
    exact Text.linesIn_quotedText hv hopen (Ended.separated hend) hrest hkey hapart hwhole
  | @array _ s _ _ _ ih =>
    have hskips : SkipsTo ('[' :: s) (skipBlank s) := .cons (by decide) (skipsTo_skipBlank s)
    rw [Text.linesIn_of_skips hskips hwhole]
    exact ih (hskips.suffix.trans hwhole) hrest trivial
  | @object _ s _ _ _ ih =>
    have hskips : SkipsTo ('{' :: s) (skipBlank s) := .cons (by decide) (skipsTo_skipBlank s)
    rw [Text.linesIn_of_skips hskips hwhole]
    exact ih (hskips.suffix.trans hwhole) hrest trivial
  | lastItem hitem hclose ih =>
    have hskips := skipBlank_cons hclose (by decide)
    rw [ih hwhole (hrest.of_skips hskips) (Text.ended_of_skipBlank hclose (by decide)), filter_under_place,
      Text.linesIn_of_skips hskips (hitem.suffix.trans hwhole)]
  | item hitem hcomma hitems ih ih' =>
    have hskips := (skipBlank_cons hcomma (by decide)).trans (skipsTo_skipBlank _)
    have hsuffix := hitem.suffix.trans hwhole
    have hquoted := (hitems.quoted hrest trivial).of_skips hskips
    rw [ih hwhole hquoted (Text.ended_of_skipBlank hcomma (by decide)), Text.linesIn_of_skips hskips hsuffix,
      ih' (hskips.suffix.trans hsuffix) hrest trivial, List.filter_append, List.map_append, filter_under_place,
      List.append_assoc]
  | lastMember hname hcolon hvalue hclose ih =>
    have hskips := skipBlank_cons hclose (by decide)
    have hended := Text.ended_of_skipBlank hclose (by decide)
    have hquoted := hvalue.quoted (hrest.of_skips hskips) hended
    have hsuffix := (skipBlank_suffix hcolon (by decide)).trans ((List.suffix_append _ _).trans hwhole)
    rw [linesIn_member hkey htarget hapart hname hcolon hvalue hwhole (.of_separator hcolon (by decide) hquoted)
      (ih hsuffix (hrest.of_skips hskips) hended), Text.linesIn_of_skips hskips (hvalue.suffix.trans hsuffix)]
  | member hname hcolon hvalue hcomma hmembers ih ih' =>
    have hskips := (skipBlank_cons hcomma (by decide)).trans (skipsTo_skipBlank _)
    have hended := Text.ended_of_skipBlank hcomma (by decide)
    have hmore := (hmembers.quoted hrest trivial).of_skips hskips
    have hquoted := hvalue.quoted hmore hended
    have hsuffix := (skipBlank_suffix hcolon (by decide)).trans ((List.suffix_append _ _).trans hwhole)
    have hrest' := hvalue.suffix.trans hsuffix
    rw [linesIn_member hkey htarget hapart hname hcolon hvalue hwhole (.of_separator hcolon (by decide) hquoted)
      (ih hsuffix hmore hended), Text.linesIn_of_skips hskips hrest',
      ih' (hskips.suffix.trans hrest') hrest trivial, ← List.cons_append, List.filter_append, List.map_append,
      List.append_assoc]

theorem Writes.pairLines_eq {text : String} {raw : Json} (h : Writes text raw ws) :
    Text.pairLines key target text =
      (ws.filter (Written.isPair key target)).map fun w => lineAt text.toList w.place := by
  obtain ⟨rest, hspelled, hend⟩ := h
  have hskips := skipsTo_skipBlank text.toList
  have hstart : Text.pairLines key target text = linesIn key target text.toList text.toList := by
    simp [Text.pairLines, Text.linesIn, Text.lineAt]
  have hblank : SkipsTo rest [] := hend ▸ skipsTo_skipBlank rest
  have hended : Ended rest := by
    intro c hc
    have hall : ∀ d ∈ rest, Text.isBlank d = true := fun d hd =>
      Text.isBlank_of_json (List.dropWhile_eq_nil_iff.1 hend d hd)
    rw [List.dropWhile_eq_nil_iff.2 hall] at hc
    cases hc
  rw [hstart, Text.linesIn_of_skips hskips (List.suffix_refl _),
    hspelled.linesIn_eq hkey htarget hapart hskips.suffix (Quoted.nil.of_skips hblank) hended,
    Text.linesIn_of_skips hblank (hspelled.suffix.trans hskips.suffix)]
  exact List.append_nil _

end Found

end BlockCheck.Json
