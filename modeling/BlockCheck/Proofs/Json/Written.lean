import BlockCheck.Location
import BlockCheck.Proofs.Json.DistinctKeys
import BlockCheck.Proofs.Text.Respelled
import Mathlib.Data.List.TakeWhile

/-!
# Values as they are written

How a text without escapes writes a value: stretch by stretch, with the place at which each member of an
object is written. A key that is written again counts as a member of its own, so that the value that is
read is the value as it is written only where no key is.
-/

namespace BlockCheck.Json

/-- A member of the object at a location, with the text from its key on. -/
structure Written where
  location : Location
  name : String
  value : Json
  place : List Char

def Written.under (step : Step) (w : Written) : Written := { w with location := step :: w.location }

/-- What a stretch of text can write. Items are counted, and they and members stand before the bracket
that closes them. -/
inductive Part where
  | value (value : Json)
  | items (position : Nat) (items : List Json)
  | members (members : List (String × Json))

/-- The first text goes on to the second one without a quote in between. -/
def SkipsTo (s rest : List Char) : Prop := ∃ p, '"' ∉ p ∧ s = p ++ rest

/-- Neither a string nor white space begins here. -/
def StartsBare (s : List Char) : Prop := ∀ c ∈ s.head?, c ≠ '"' ∧ Text.isBlank c = false

def Bare : Json → Prop
  | .string _ => False
  | .array items => items = []
  | .object members => members = []
  | _ => True

/-- The stretch from the first text to the second one writes the part, with these members in it. -/
inductive Spelled : Part → List Char → List Written → List Char → Prop
  | bare {value : Json} {s rest : List Char} (hvalue : Bare value) (hhead : StartsBare s)
      (hskips : SkipsTo s rest) (hread : Json.value 1 s = .ok (value, rest)) :
      Spelled (.value value) s [] rest
  | string {v : String} {rest : List Char} (hv : Text.Plain v) :
      Spelled (.value (.string v)) (Text.quotedText v ++ rest) [] rest
  | array {items : List Json} {s rest : List Char} {ws : List Written}
      (hitems : Spelled (.items 0 items) (skipBlank s) ws rest) :
      Spelled (.value (.array items)) ('[' :: s) ws rest
  | object {members : List (String × Json)} {s rest : List Char} {ws : List Written}
      (hmembers : Spelled (.members members) (skipBlank s) ws rest) :
      Spelled (.value (.object members)) ('{' :: s) ws rest
  | lastItem {n : Nat} {item : Json} {s r rest : List Char} {ws : List Written}
      (hitem : Spelled (.value item) s ws r) (hend : skipBlank r = ']' :: rest) :
      Spelled (.items n [item]) s (ws.map (Written.under (.index n))) rest
  | item {n : Nat} {item : Json} {items : List Json} {s r r' rest : List Char} {ws ws' : List Written}
      (hitem : Spelled (.value item) s ws r) (hend : skipBlank r = ',' :: r')
      (hitems : Spelled (.items (n + 1) items) (skipBlank r') ws' rest) :
      Spelled (.items n (item :: items)) s (ws.map (Written.under (.index n)) ++ ws') rest
  | lastMember {key : String} {value : Json} {r t r' rest : List Char} {ws : List Written}
      (hkey : Text.Plain key) (hcolon : skipBlank r = ':' :: t)
      (hvalue : Spelled (.value value) (skipBlank t) ws r') (hend : skipBlank r' = '}' :: rest) :
      Spelled (.members [(key, value)]) (Text.quotedText key ++ r)
        (⟨[], key, value, Text.quotedText key ++ r⟩ :: ws.map (Written.under (.key key))) rest
  | member {key : String} {value : Json} {members : List (String × Json)} {r t r' r'' rest : List Char}
      {ws ws' : List Written} (hkey : Text.Plain key) (hcolon : skipBlank r = ':' :: t)
      (hvalue : Spelled (.value value) (skipBlank t) ws r') (hend : skipBlank r' = ',' :: r'')
      (hmembers : Spelled (.members members) (skipBlank r'') ws' rest) :
      Spelled (.members ((key, value) :: members)) (Text.quotedText key ++ r)
        (⟨[], key, value, Text.quotedText key ++ r⟩ :: (ws.map (Written.under (.key key)) ++ ws')) rest

def Writes (text : String) (value : Json) (ws : List Written) : Prop :=
  ∃ rest, Spelled (.value value) (skipBlank text.toList) ws rest ∧ skipBlank rest = []

variable {j raw : Json} {s t rest cs : List Char} {c : Char}

/-! ## Stretches without a quote -/

namespace SkipsTo

theorem refl (s : List Char) : SkipsTo s s := ⟨[], List.not_mem_nil, rfl⟩

theorem trans {u : List Char} (h : SkipsTo s t) (h' : SkipsTo t u) : SkipsTo s u := by
  obtain ⟨p, hp, rfl⟩ := h
  obtain ⟨q, hq, rfl⟩ := h'
  exact ⟨p ++ q, by simp [hp, hq], (List.append_assoc p q u).symm⟩

theorem cons (hc : c ≠ '"') (h : SkipsTo s rest) : SkipsTo (c :: s) rest := by
  obtain ⟨p, hp, rfl⟩ := h
  exact ⟨c :: p, by simp [hp, Ne.symm hc], rfl⟩

theorem of_dropWhile {p : Char → Bool} (hp : p '"' = false) (s : List Char) : SkipsTo s (s.dropWhile p) := by
  refine ⟨s.takeWhile p, fun hmem => ?_, List.takeWhile_append_dropWhile.symm⟩
  exact absurd (List.mem_takeWhile_imp hmem) (by simp [hp])

theorem suffix (h : SkipsTo s rest) : rest <:+ s := by
  obtain ⟨p, -, rfl⟩ := h
  exact List.suffix_append p rest

end SkipsTo

theorem skipsTo_skipBlank (s : List Char) : SkipsTo s (skipBlank s) := .of_dropWhile (by decide) s

theorem skipBlank_cons (h : skipBlank s = c :: rest) (hc : c ≠ '"') : SkipsTo s rest := by
  have hskips := skipsTo_skipBlank s
  rw [h] at hskips
  exact hskips.trans (.cons hc (.refl rest))

theorem startsBare_cons (hquote : c ≠ '"') (hblank : Text.isBlank c = false) (s : List Char) :
    StartsBare (c :: s) := by
  rintro _ ⟨⟩
  exact ⟨hquote, hblank⟩

theorem isBlank_of_isDigit (h : c.isDigit = true) : Text.isBlank c = false := by
  simp only [Char.isDigit, Bool.and_eq_true, decide_eq_true_eq, ge_iff_le, UInt32.le_iff_toNat_le] at h
  have hc : c.toNat = c.val.toNat := rfl
  simp [Text.isBlank, Text.within, Text.blankRanges] at h ⊢
  omega

theorem startsBare_of_isDigit (h : c.isDigit = true) (s : List Char) : StartsBare (c :: s) := by
  refine startsBare_cons ?_ (isBlank_of_isDigit h) s
  rintro rfl
  exact absurd h (by decide)

theorem of_wholePart {whole : List Char} (h : wholePart s = some (whole, rest)) :
    SkipsTo s rest ∧ StartsBare s := by
  unfold wholePart at h
  split at h
  · cases h
    exact ⟨.cons (by decide) (.refl _), startsBare_of_isDigit (by decide) _⟩
  · split at h
    · rename_i hdigit
      cases h
      exact ⟨.of_dropWhile (by decide) _, startsBare_of_isDigit hdigit _⟩
    · cases h
  · cases h

theorem skipsTo_fractionPart (s : List Char) : SkipsTo s (fractionPart s).2 := by
  unfold fractionPart
  split
  · split
    · exact .cons (by decide) (.of_dropWhile (by decide) _)
    · exact .refl _
  · exact .refl _

theorem skipsTo_exponentSign (s : List Char) : SkipsTo s (exponentSign s).2 := by
  unfold exponentSign
  split
  · exact .cons (by decide) (.refl _)
  · exact .cons (by decide) (.refl _)
  · exact .refl _

theorem skipsTo_exponentPart (s : List Char) : SkipsTo s (exponentPart s).2 := by
  unfold exponentPart
  split
  · rename_i c rest
    split
    · rename_i hc
      have hquote : c ≠ '"' := by rcases hc with rfl | rfl <;> decide
      dsimp only
      split
      · exact .refl _
      · exact .cons hquote ((skipsTo_exponentSign rest).trans (.of_dropWhile (by decide) _))
    · exact .refl _
  · exact .refl _

theorem of_unsignedNumber {negative : Bool} {start : List Char}
    (h : unsignedNumber negative start s = .ok (j, rest)) : SkipsTo s rest ∧ StartsBare s ∧ Bare j := by
  unfold unsignedNumber at h
  split at h
  · cases h
  · rename_i whole afterWhole hwhole
    obtain ⟨hwhole, hhead⟩ := of_wholePart hwhole
    have hskips : SkipsTo s (exponentPart (fractionPart afterWhole).2).2 :=
      hwhole.trans ((skipsTo_fractionPart _).trans (skipsTo_exponentPart _))
    dsimp only at h
    split at h
    · split at h
      · cases h
      · cases h
        exact ⟨hskips, hhead, trivial⟩
    · cases h
      exact ⟨hskips, hhead, trivial⟩

theorem of_number (h : number s = .ok (j, rest)) : SkipsTo s rest ∧ StartsBare s ∧ Bare j := by
  unfold number at h
  split at h
  · obtain ⟨hskips, -, hbare⟩ := of_unsignedNumber h
    exact ⟨.cons (by decide) hskips, startsBare_cons (by decide) (by decide) _, hbare⟩
  · exact of_unsignedNumber h

theorem of_literal? (h : literal? s = some (j, rest)) : SkipsTo s rest ∧ StartsBare s ∧ Bare j := by
  obtain ⟨l, hl, heq⟩ := Option.map_eq_some_iff.1 h
  have hmem : l ∈ literals := List.mem_of_find?_eq_some hl
  have hprefix : l.1.isPrefixOf s = true := List.find?_some (p := fun l : List Char × Json => l.1.isPrefixOf s) hl
  cases heq
  obtain ⟨more, rfl⟩ := List.isPrefixOf_iff_prefix.1 hprefix
  rw [List.drop_left]
  simp only [literals, List.mem_cons, List.not_mem_nil, or_false] at hmem
  rcases hmem with rfl | rfl | rfl | rfl | rfl | rfl
  all_goals exact ⟨⟨_, by decide, rfl⟩, startsBare_cons (by decide) (by decide) _, trivial⟩

/-! ## What the reader reads -/

theorem stringTail_char {start : List Char} {cs' : List Char × List Char} (hquote : c ≠ '"') (hslash : c ≠ '\\')
    (h : stringTail start (c :: s) = .ok cs') :
    ∃ cs rest, stringTail start s = .ok (cs, rest) ∧ cs' = (c :: cs, rest) ∧ 0x20 ≤ c.toNat := by
  rw [stringTail] at h
  · split at h
    · cases h
    · rename_i hcontrol
      obtain ⟨⟨cs, rest⟩, hrest, h⟩ := exists_of_bind_eq_ok h
      cases h
      exact ⟨cs, rest, hrest, rfl, Nat.le_of_not_lt hcontrol⟩
  all_goals
    intros
    simp_all

theorem plain_of_stringTail {start : List Char} (hs : '\\' ∉ s) (h : stringTail start s = .ok (cs, rest)) :
    Text.Plain (String.ofList cs) ∧ '"' :: s = Text.quotedText (String.ofList cs) ++ rest := by
  induction s generalizing cs with
  | nil => cases h
  | cons c s ih =>
    by_cases hquote : c = '"'
    · subst hquote
      cases h
      exact ⟨by simp [Text.Plain], rfl⟩
    · have hslash : c ≠ '\\' := Ne.symm (List.ne_of_not_mem_cons hs)
      obtain ⟨more, rest', hmore, heq, hcontrol⟩ := stringTail_char hquote hslash h
      cases heq
      obtain ⟨hplain, hwritten⟩ := ih (List.not_mem_of_not_mem_cons hs) hmore
      refine ⟨?_, ?_⟩
      · intro d hd
        rw [String.toList_ofList, List.mem_cons] at hd
        rcases hd with rfl | hd
        · exact ⟨hquote, hslash, hcontrol⟩
        · exact hplain d (by rwa [String.toList_ofList])
      · rw [Text.quotedText_eq, String.toList_ofList] at hwritten ⊢
        rw [(List.cons.inj hwritten).2]
        rfl

/-- What one step of reading is to tell: how what it reads is written. -/
structure ReadsWritten (fuel : Nat) : Prop where
  value : ∀ {s j rest}, value fuel s = .ok (j, rest) → '\\' ∉ s →
    ∃ raw ws, Spelled (.value raw) s ws rest ∧ (raw.DistinctKeys → raw = j)
  items : ∀ {s js rest} (n : Nat), items fuel s = .ok (js, rest) → '\\' ∉ s →
    ∃ raws ws, Spelled (.items n raws) s ws rest ∧ ((∀ raw ∈ raws, raw.DistinctKeys) → raws = js)
  members : ∀ {s read ms rest}, members fuel read s = .ok (ms, rest) → '\\' ∉ s →
    ∃ raws ws, Spelled (.members raws) s ws rest ∧ (DistinctKeys (.object (read ++ raws)) → read ++ raws = ms)

theorem skipBlank_suffix (h : skipBlank s = c :: t) (hc : c ≠ '"') : skipBlank t <:+ s :=
  (skipsTo_skipBlank t).suffix.trans (skipBlank_cons h hc).suffix

theorem Spelled.suffix {part : Part} {ws : List Written} (h : Spelled part s ws rest) : rest <:+ s := by
  induction h with
  | bare _ _ hskips _ => exact hskips.suffix
  | string => exact List.suffix_append _ _
  | array _ ih | object _ ih => exact ih.trans ((skipsTo_skipBlank _).suffix.trans (List.suffix_cons _ _))
  | lastItem _ hend ih => exact (skipBlank_cons hend (by decide)).suffix.trans ih
  | item _ hend _ ih ih' => exact ih'.trans ((skipBlank_suffix hend (by decide)).trans ih)
  | lastMember _ hcolon _ hend ih =>
    have hvalue := ih.trans (skipBlank_suffix hcolon (by decide))
    exact (skipBlank_cons hend (by decide)).suffix.trans (hvalue.trans (List.suffix_append _ _))
  | member _ hcolon _ hend _ ih ih' =>
    have hvalue := ih.trans (skipBlank_suffix hcolon (by decide))
    exact ih'.trans ((skipBlank_suffix hend (by decide)).trans (hvalue.trans (List.suffix_append _ _)))

theorem value_written {fuel : Nat} (ih : ReadsWritten fuel) (h : value (fuel + 1) s = .ok (j, rest))
    (hs : '\\' ∉ s) : ∃ raw ws, Spelled (.value raw) s ws rest ∧ (raw.DistinctKeys → raw = j) := by
  have hblank {d : Char} (t : List Char) (ht : '\\' ∉ d :: t) : '\\' ∉ skipBlank t := fun hmem =>
    ht (List.mem_cons_of_mem d ((skipsTo_skipBlank t).suffix.subset hmem))
  unfold value at h
  split at h
  · obtain ⟨⟨cs, r⟩, htail, h⟩ := exists_of_bind_eq_ok h
    cases h
    obtain ⟨hplain, hwritten⟩ := plain_of_stringTail (List.not_mem_of_not_mem_cons hs) htail
    rw [hwritten]
    exact ⟨_, _, .string hplain, fun _ => rfl⟩
  · rename_i s
    split at h
    · rename_i hempty
      -- An empty list has no items to be spelled, so it is written like a literal.
      cases h
      refine ⟨.array [], [], .bare rfl (startsBare_cons (by decide) (by decide) s)
        (.cons (by decide) (skipBlank_cons hempty (by decide))) ?_, fun _ => rfl⟩
      simp [value, hempty]
    · obtain ⟨⟨js, r⟩, hitems, h⟩ := exists_of_bind_eq_ok h
      cases h
      obtain ⟨raws, ws, hspelled, heq⟩ := ih.items 0 hitems (hblank s hs)
      refine ⟨.array raws, ws, .array hspelled, fun hdistinct => ?_⟩
      cases hdistinct with
      | array hraws => rw [heq hraws]
  · rename_i s
    split at h
    · rename_i hempty
      cases h
      refine ⟨.object [], [], .bare rfl (startsBare_cons (by decide) (by decide) s)
        (.cons (by decide) (skipBlank_cons hempty (by decide))) ?_, fun _ => rfl⟩
      simp [value, hempty]
    · obtain ⟨⟨ms, r⟩, hmembers, h⟩ := exists_of_bind_eq_ok h
      cases h
      obtain ⟨raws, ws, hspelled, heq⟩ := ih.members hmembers (hblank s hs)
      exact ⟨.object raws, ws, .object hspelled, fun hdistinct => congrArg Json.object (heq hdistinct)⟩
  · -- Literals and numbers are read in one step, so that fuel for one step is enough.
    rename_i hquote hbracket hbrace
    have hread : value 1 s = .ok (j, rest) := by
      unfold value
      split
      · exact absurd rfl (hquote _)
      · exact absurd rfl (hbracket _)
      · exact absurd rfl (hbrace _)
      · exact h
    obtain ⟨hskips, hhead, hbare⟩ : SkipsTo s rest ∧ StartsBare s ∧ Bare j := by
      split at h
      · rename_i hliteral
        cases h
        exact of_literal? hliteral
      · exact of_number h
    exact ⟨j, [], .bare hbare hhead hskips hread, fun _ => rfl⟩

theorem items_written {fuel : Nat} (ih : ReadsWritten fuel) {js : List Json} (n : Nat)
    (h : items (fuel + 1) s = .ok (js, rest)) (hs : '\\' ∉ s) :
    ∃ raws ws, Spelled (.items n raws) s ws rest ∧ ((∀ raw ∈ raws, raw.DistinctKeys) → raws = js) := by
  unfold items at h
  obtain ⟨⟨item, r⟩, hitem, h⟩ := exists_of_bind_eq_ok h
  obtain ⟨raw, ws, hspelled, heq⟩ := ih.value hitem hs
  dsimp only at h
  split at h
  · rename_i hend
    cases h
    refine ⟨[raw], _, .lastItem hspelled hend, fun hraws => ?_⟩
    rw [heq (hraws raw List.mem_cons_self)]
  · rename_i r' hend
    obtain ⟨⟨more, r''⟩, hmore, h⟩ := exists_of_bind_eq_ok h
    cases h
    have hr : '\\' ∉ skipBlank r' := fun hmem =>
      hs (hspelled.suffix.subset ((skipBlank_suffix hend (by decide)).subset hmem))
    obtain ⟨raws, ws', hitems, hrest⟩ := ih.items (n + 1) hmore hr
    refine ⟨raw :: raws, _, .item hspelled hend hitems, fun hraws => ?_⟩
    obtain ⟨hfirst, hothers⟩ := List.forall_mem_cons.1 hraws
    rw [heq hfirst, hrest hothers]
  · cases h

theorem DistinctKeys.of_append_cons {read more : List (String × Json)} {key : String}
    (h : DistinctKeys (.object (read ++ (key, raw) :: more))) : key ∉ Record.keys read ∧ raw.DistinctKeys := by
  cases h with
  | object hkeys hmembers =>
    refine ⟨fun hmem => ?_, hmembers (key, raw) (by simp)⟩
    rw [Record.keys, List.map_append, List.nodup_append] at hkeys
    exact hkeys.2.2 key hmem key List.mem_cons_self rfl

theorem members_written {fuel : Nat} (ih : ReadsWritten fuel) {read ms : List (String × Json)}
    (h : members (fuel + 1) read s = .ok (ms, rest)) (hs : '\\' ∉ s) :
    ∃ raws ws, Spelled (.members raws) s ws rest ∧
      (DistinctKeys (.object (read ++ raws)) → read ++ raws = ms) := by
  unfold members at h
  split at h
  · obtain ⟨⟨cs, r⟩, htail, h⟩ := exists_of_bind_eq_ok h
    obtain ⟨hkey, hwritten⟩ := plain_of_stringTail (List.not_mem_of_not_mem_cons hs) htail
    rw [hwritten] at hs ⊢
    have hr : '\\' ∉ r := fun hmem => hs (List.mem_append_right _ hmem)
    dsimp only at h
    split at h
    · rename_i t hcolon
      obtain ⟨⟨item, r'⟩, hitem, h⟩ := exists_of_bind_eq_ok h
      have ht : '\\' ∉ skipBlank t := fun hmem => hr ((skipBlank_suffix hcolon (by decide)).subset hmem)
      obtain ⟨raw, ws, hspelled, heq⟩ := ih.value hitem ht
      -- With distinct keys a member is never put in the place of an earlier one.
      have hinsert {more : List (String × Json)}
          (hdistinct : DistinctKeys (.object (read ++ (String.ofList cs, raw) :: more))) :
          read ++ (String.ofList cs, raw) :: more = Record.insert (String.ofList cs) item read ++ more := by
        obtain ⟨hfresh, hraw⟩ := hdistinct.of_append_cons
        rw [Record.insert_of_not_mem hfresh, heq hraw, List.append_assoc, List.singleton_append]
      dsimp only at h
      split at h
      · rename_i hend
        cases h
        refine ⟨[(String.ofList cs, raw)], _, .lastMember hkey hcolon hspelled hend, fun hdistinct => ?_⟩
        rw [hinsert hdistinct, List.append_nil]
      · rename_i r'' hend
        have hr'' : '\\' ∉ skipBlank r'' := fun hmem =>
          ht (hspelled.suffix.subset ((skipBlank_suffix hend (by decide)).subset hmem))
        obtain ⟨raws, ws', hmembers, hrest⟩ := ih.members h hr''
        refine ⟨(String.ofList cs, raw) :: raws, _, .member hkey hcolon hspelled hend hmembers,
          fun hdistinct => ?_⟩
        rw [hinsert hdistinct]
        exact hrest (hinsert hdistinct ▸ hdistinct)
      · cases h
    · cases h
  · cases h

theorem readsWritten (fuel : Nat) : ReadsWritten fuel := by
  induction fuel with
  | zero => exact { value := nofun, items := nofun, members := nofun }
  | succ fuel ih =>
    exact { value := value_written ih, items := items_written ih, members := members_written ih }

/-- A text without escapes writes what is read from it, unless it writes a key of an object twice. -/
theorem writes_of_parse {text : String} (h : parse text = .ok j) (hs : '\\' ∉ text.toList) :
    ∃ raw ws, Writes text raw ws ∧ (raw.DistinctKeys → raw = j) := by
  obtain ⟨fuel, rest, hvalue, hend⟩ := exists_value_of_parse h
  have hblank : '\\' ∉ skipBlank text.toList := fun hmem => hs ((skipsTo_skipBlank _).suffix.subset hmem)
  obtain ⟨raw, ws, hspelled, heq⟩ := (readsWritten fuel).value hvalue hblank
  exact ⟨raw, ws, ⟨rest, hspelled, hend⟩, heq⟩

end BlockCheck.Json
