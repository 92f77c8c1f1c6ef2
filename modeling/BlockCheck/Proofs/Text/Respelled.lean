import BlockCheck.Proofs.Scan.Renaming
import BlockCheck.Text.Line

/-!
# Keys that are spelled anew

A key is renamed in a text where it stands, and the rest of the text is left alone. As long as keys are
written without escapes, the pairs of the new key and a value then stand on the lines on which those of
the old one stood. What could be in the way are quotes inside a string: a key may seem to begin there.
-/

namespace BlockCheck.Text

/-- Written between quotes as it is, without escapes. -/
def Plain (s : String) : Prop := ∀ c ∈ s.toList, c ≠ '"' ∧ c ≠ '\\' ∧ 0x20 ≤ c.toNat

instance (s : String) : Decidable (Plain s) := List.decidableBAll _ s.toList

inductive Body : List Char → Prop
  | nil : Body []
  | char {c : Char} {s : List Char} : c ≠ '"' → c ≠ '\\' → Body s → Body (c :: s)
  | escape {c : Char} {s : List Char} : Body s → Body ('\\' :: c :: s)

/-- What stands behind a string that is no key: a comma, a closing bracket, or nothing. -/
def Ended (s : List Char) : Prop := ∀ c ∈ (s.dropWhile isBlank).head?, c ∈ [',', ']', '}']

instance (s : List Char) : Decidable (Ended s) := Option.decidableForallMem _

def IsColon (gap : List Char) : Prop :=
  ∃ before after, gap = before ++ ':' :: after ∧ (∀ c ∈ before, isBlank c = true) ∧
    ∀ c ∈ after, isBlank c = true

/-- The second text is the first one with the key `old` spelled `new`, which is no key of the first. -/
inductive Respelled (old new : String) : List Char → List Char → Prop
  | nil : Respelled old new [] []
  | other {c : Char} {s t : List Char} : c ≠ '"' → Respelled old new s t →
      Respelled old new (c :: s) (c :: t)
  | string {body s t : List Char} : Body body → Ended s → Respelled old new s t →
      Respelled old new ('"' :: (body ++ '"' :: s)) ('"' :: (body ++ '"' :: t))
  | pair {key : String} {gap body s t : List Char} : Plain key → key ≠ new → IsColon gap → Body body →
      Ended s → Respelled old new s t →
      Respelled old new (quotedText key ++ (gap ++ '"' :: (body ++ '"' :: s)))
        (quotedText (Json.renamedKey old new key) ++ (gap ++ '"' :: (body ++ '"' :: t)))
  | key {key : String} {gap : List Char} {c : Char} {s t : List Char} : Plain key → key ≠ new →
      IsColon gap → c ≠ '"' → isBlank c = false → Respelled old new (c :: s) (c :: t) →
      Respelled old new (quotedText key ++ (gap ++ c :: s))
        (quotedText (Json.renamedKey old new key) ++ (gap ++ c :: t))

variable {old new key value : String} {c : Char} {s t rest gap body : List Char} {line : Nat}

/-! ## Where a pair does not begin -/

theorem Plain.isBody {k : String} (h : Plain k) : Body k.toList := by
  have hall : ∀ l : List Char, (∀ c ∈ l, c ≠ '"' ∧ c ≠ '\\' ∧ 0x20 ≤ c.toNat) → Body l := by
    intro l hl
    induction l with
    | nil => exact .nil
    | cons c l ih =>
      obtain ⟨hc, hl⟩ := List.forall_mem_cons.1 hl
      exact .char hc.1 hc.2.1 (ih hl)
  exact hall _ h

theorem quotedText_eq (key : String) : quotedText key = '"' :: (key.toList ++ ['"']) := rfl

theorem afterPair?_of_ne_quote (h : c ≠ '"') (key value : String) (s : List Char) :
    afterPair? key value (c :: s) = none := by
  simp [afterPair?, dropPrefix?, quotedText_eq, Ne.symm h]

theorem afterPair?_of_head (hkey : key.toList.head? = some '_') (h : ∀ c ∈ s.head?, c ≠ '_')
    (value : String) : afterPair? key value ('"' :: s) = none := by
  obtain ⟨more, hmore⟩ := List.head?_eq_some_iff.1 hkey
  cases s with
  | nil => simp [afterPair?, dropPrefix?, quotedText_eq, hmore]
  | cons d s =>
    have hd : '_' ≠ d := Ne.symm (h d rfl)
    simp [afterPair?, dropPrefix?, quotedText_eq, hmore, hd]

theorem prefix_body_iff (hbody : Body body) {ks : List Char} (hks : ∀ c ∈ ks, c ≠ '"' ∧ c ≠ '\\')
    (s : List Char) : ks ++ ['"'] <+: body ++ '"' :: s ↔ body = ks := by
  induction hbody generalizing ks with
  | nil =>
    cases ks with
    | nil => simp
    | cons k ks => simp [(hks k (by simp)).1]
  | char hquote hslash _ ih =>
    cases ks with
    | nil => simp [Ne.symm hquote]
    | cons k ks =>
      rw [List.cons_append, List.cons_append, List.cons_prefix_cons,
        ih fun c hc => hks c (List.mem_cons_of_mem _ hc), List.cons.injEq, eq_comm]
  | escape _ ih =>
    cases ks with
    | nil => simp
    | cons k ks =>
      have hk : k ≠ '\\' := (hks k (by simp)).2
      simp [hk, Ne.symm hk]

theorem dropPrefix?_string (hbody : Body body) (hkey : Plain key) (s : List Char) :
    dropPrefix? (quotedText key) ('"' :: (body ++ '"' :: s)) =
      if body = key.toList then some s else none := by
  have hbegin : (quotedText key).isPrefixOf ('"' :: (body ++ '"' :: s)) = true ↔
      body = key.toList := by
    rw [List.isPrefixOf_iff_prefix, quotedText_eq, List.cons_prefix_cons]
    simpa using prefix_body_iff hbody (fun c hc => ⟨(hkey c hc).1, (hkey c hc).2.1⟩) s
  unfold dropPrefix?
  by_cases hsame : body = key.toList
  · rw [if_pos (hbegin.2 hsame), if_pos hsame, quotedText_eq, hsame]
    simp
  · rw [if_neg (mt hbegin.1 hsame), if_neg hsame]

theorem afterPair?_of_ended (hbody : Body body) (hs : Ended s) (hkey : Plain key) (value : String) :
    afterPair? key value ('"' :: (body ++ '"' :: s)) = none := by
  have hcolon : dropPrefix? [':'] (s.dropWhile isBlank) = none := by
    unfold Ended at hs
    cases hrest : s.dropWhile isBlank with
    | nil => rfl
    | cons d more =>
      have hd : d ∈ [',', ']', '}'] := hs d (by simp [hrest])
      have hne : ':' ≠ d := by
        rintro rfl
        exact absurd hd (by decide)
      simp [dropPrefix?, hne]
  unfold afterPair?
  rw [dropPrefix?_string hbody hkey]
  split
  · simp [hcolon]
  · rfl

theorem Ended.head (h : Ended s) : ∀ c ∈ s.head?, c ≠ '_' := by
  rintro c hc rfl
  obtain ⟨more, rfl⟩ := List.head?_eq_some_iff.1 hc
  have hmem := h '_' (by rw [List.dropWhile_cons_of_neg (by decide)]; rfl)
  exact absurd hmem (by decide)

theorem IsColon.head (h : IsColon gap) (s : List Char) : ∀ c ∈ (gap ++ s).head?, c ≠ '_' := by
  obtain ⟨before, after, rfl, hbefore, -⟩ := h
  rintro c hc rfl
  cases before with
  | nil => simp at hc
  | cons d more =>
    obtain rfl : d = '_' := by simpa using hc
    exact absurd (hbefore '_' (by simp)) (by decide)

theorem IsColon.no_quote (h : IsColon gap) : ∀ c ∈ gap, c ≠ '"' := by
  obtain ⟨before, after, rfl, hbefore, hafter⟩ := h
  rintro c hc rfl
  rw [List.mem_append, List.mem_cons] at hc
  rcases hc with hc | hc | hc
  · exact absurd (hbefore _ hc) (by decide)
  · exact absurd hc (by decide)
  · exact absurd (hafter _ hc) (by decide)

theorem Ended.of_respelled (hs : Ended s) (h : Respelled old new s t) : Ended t := by
  have hquote : ∀ rest, ¬Ended ('"' :: rest) := by
    intro rest h
    have hmem := h '"' (by rw [List.dropWhile_cons_of_neg (by decide)]; rfl)
    exact absurd hmem (by decide)
  induction h with
  | nil => exact hs
  | @other c s t _ _ ih =>
    unfold Ended at hs ih ⊢
    by_cases hblank : isBlank c = true
    · rw [List.dropWhile_cons_of_pos hblank] at hs ⊢
      exact ih hs
    · rw [List.dropWhile_cons_of_neg hblank] at hs ⊢
      exact hs
  | string | pair | key => exact absurd hs (hquote _)

/-! ## A key with what follows it -/

theorem dropColon (hgap : IsColon gap) (hrest : ∀ c ∈ rest.head?, isBlank c = false) :
    (dropPrefix? [':'] ((gap ++ rest).dropWhile isBlank)).map (List.dropWhile isBlank) = some rest := by
  obtain ⟨before, after, rfl, hbefore, hafter⟩ := hgap
  have hstop : rest.dropWhile isBlank = rest := by
    cases rest with
    | nil => rfl
    | cons d more => exact List.dropWhile_cons_of_neg (by simp [hrest d rfl])
  rw [List.append_assoc, List.dropWhile_append_of_pos hbefore, List.cons_append,
    List.dropWhile_cons_of_neg (by decide)]
  simp [dropPrefix?, List.dropWhile_append_of_pos hafter, hstop]

theorem afterPair?_key {k : String} (hk : Plain k) (hkey : Plain key) (hgap : IsColon gap)
    (hrest : ∀ c ∈ rest.head?, isBlank c = false) (value : String) :
    afterPair? key value (quotedText k ++ (gap ++ rest)) =
      if k = key then dropPrefix? (quotedText value) rest else none := by
  have hcolon := dropColon hgap hrest
  have hsplit : quotedText k ++ (gap ++ rest) = '"' :: (k.toList ++ '"' :: (gap ++ rest)) := by
    simp [quotedText_eq]
  unfold afterPair?
  rw [hsplit, dropPrefix?_string hk.isBody hkey]
  by_cases hsame : k = key
  · rw [if_pos (congrArg String.toList hsame), if_pos hsame]
    cases hfound : dropPrefix? [':'] ((gap ++ rest).dropWhile isBlank) with
    | none => simp [hfound] at hcolon
    | some found =>
      rw [hfound, Option.map_some, Option.some.injEq] at hcolon
      simp [hfound, hcolon]
  · rw [if_neg (mt String.toList_inj.1 hsame), if_neg hsame]
    rfl

/-! ## The lines of pairs, piece by piece -/

theorem count_cons (c : Char) (p : List Char) (line : Nat) :
    (if c = '\n' then line + 1 else line) + p.count '\n' = line + (c :: p).count '\n' := by
  rw [List.count_cons]
  by_cases hc : c = '\n'
  · simp [hc]
    omega
  · simp [hc]

theorem pairLinesFrom_skip (key value : String) (p s : List Char) (line : Nat) :
    pairLinesFrom key value p.length line (p ++ s) =
      pairLinesFrom key value 0 (line + p.count '\n') s := by
  induction p generalizing line with
  | nil => rfl
  | cons c p ih =>
    rw [List.cons_append, List.length_cons, pairLinesFrom, ih, count_cons]

theorem pairLinesFrom_cons (h : afterPair? key value (c :: s) = none) (line : Nat) :
    pairLinesFrom key value 0 line (c :: s) =
      pairLinesFrom key value 0 (line + [c].count '\n') s := by
  rw [pairLinesFrom, h, ← count_cons]
  rfl

theorem pairLinesFrom_no_quote {p : List Char} (h : ∀ c ∈ p, c ≠ '"') (key value : String)
    (s : List Char) (line : Nat) :
    pairLinesFrom key value 0 line (p ++ s) =
      pairLinesFrom key value 0 (line + p.count '\n') s := by
  induction p generalizing line with
  | nil => rfl
  | cons c p ih =>
    obtain ⟨hc, hp⟩ := List.forall_mem_cons.1 h
    rw [List.cons_append, pairLinesFrom_cons (afterPair?_of_ne_quote hc _ _ _), ih hp, Nat.add_assoc,
      ← List.count_append]
    rfl

theorem pairLinesFrom_body (hbody : Body body) (hs : Ended s) (hhead : key.toList.head? = some '_')
    (hkey : Plain key) (value : String) (line : Nat) :
    pairLinesFrom key value 0 line (body ++ '"' :: s) =
      pairLinesFrom key value 0 (line + body.count '\n') s := by
  induction hbody generalizing line with
  | nil =>
    rw [List.nil_append, pairLinesFrom_cons (afterPair?_of_head hhead hs.head value)]
    rfl
  | @char c body hquote _ _ ih =>
    rw [List.cons_append, pairLinesFrom_cons (afterPair?_of_ne_quote hquote _ _ _), ih, Nat.add_assoc,
      ← List.count_append]
    rfl
  | @escape c body hbody ih =>
    -- A quote behind a backslash could open the key, but then a colon would have to follow the string.
    have hc : afterPair? key value (c :: (body ++ '"' :: s)) = none := by
      by_cases hquote : c = '"'
      · rw [hquote]
        exact afterPair?_of_ended hbody hs hkey value
      · exact afterPair?_of_ne_quote hquote _ _ _
    rw [List.cons_append, List.cons_append,
      pairLinesFrom_cons (afterPair?_of_ne_quote (by decide) _ _ _), pairLinesFrom_cons hc, ih,
      Nat.add_assoc, Nat.add_assoc, ← List.count_append, ← List.count_append]
    rfl

theorem pairLinesFrom_string (hbody : Body body) (hs : Ended s) (hhead : key.toList.head? = some '_')
    (hkey : Plain key) (value : String) (line : Nat) :
    pairLinesFrom key value 0 line ('"' :: (body ++ '"' :: s)) =
      pairLinesFrom key value 0 (line + body.count '\n') s := by
  rw [pairLinesFrom_cons (afterPair?_of_ended hbody hs hkey value),
    pairLinesFrom_body hbody hs hhead hkey]
  rfl

theorem Plain.count_newline {k : String} (h : Plain k) : k.toList.count '\n' = 0 := by
  rw [List.count_eq_zero]
  intro hmem
  exact absurd (h _ hmem).2.2 (by decide)

theorem pairLinesFrom_key {k : String} (hk : Plain k) (hgap : IsColon gap)
    (hhead : key.toList.head? = some '_')
    (hnone : afterPair? key value (quotedText k ++ (gap ++ rest)) = none) (line : Nat) :
    pairLinesFrom key value 0 line (quotedText k ++ (gap ++ rest)) =
      pairLinesFrom key value 0 (line + gap.count '\n') rest := by
  have hsplit : quotedText k ++ (gap ++ rest) = '"' :: (k.toList ++ '"' :: (gap ++ rest)) := by
    simp [quotedText_eq]
  rw [hsplit] at hnone ⊢
  rw [pairLinesFrom_cons hnone, pairLinesFrom_no_quote fun c hc => (hk c hc).1, hk.count_newline,
    pairLinesFrom_cons (afterPair?_of_head hhead (hgap.head rest) value),
    pairLinesFrom_no_quote hgap.no_quote]
  rfl

theorem pairLinesFrom_pair {k : String} (hk : Plain k) (hgap : IsColon gap) (hbody : Body body)
    (hs : Ended s) (hhead : key.toList.head? = some '_') (hkey : Plain key) (hvalue : Plain value)
    (line : Nat) :
    pairLinesFrom key value 0 line (quotedText k ++ (gap ++ '"' :: (body ++ '"' :: s))) =
      (if k = key ∧ body = value.toList then [line] else []) ++
        pairLinesFrom key value 0 (line + gap.count '\n' + body.count '\n') s := by
  have hquote : ∀ c ∈ ('"' :: (body ++ '"' :: s)).head?, isBlank c = false := by
    rintro _ ⟨⟩
    decide
  have hafter := afterPair?_key hk hkey hgap hquote value
  rw [dropPrefix?_string hbody hvalue] at hafter
  by_cases hpair : k = key ∧ body = value.toList
  · rw [if_pos hpair.1, if_pos hpair.2] at hafter
    have hsplit : quotedText k ++ (gap ++ '"' :: (body ++ '"' :: s)) =
        '"' :: ((k.toList ++ ['"'] ++ gap ++ '"' :: body ++ ['"']) ++ s) := by
      simp [quotedText_eq]
    rw [hsplit] at hafter ⊢
    rw [pairLinesFrom, hafter]
    dsimp only
    rw [List.length_append, Nat.add_sub_cancel, pairLinesFrom_skip, if_pos hpair]
    simp [hk.count_newline, Nat.add_assoc]
  · rw [if_neg hpair, List.nil_append, pairLinesFrom_key hk hgap hhead,
      pairLinesFrom_string hbody hs hhead hkey]
    rw [hafter, ← ite_and, if_neg hpair]

/-! ## The lines of two texts -/

theorem renamedKey_eq_new_iff {k : String} (h : k ≠ new) : Json.renamedKey old new k = new ↔ k = old := by
  unfold Json.renamedKey
  split
  · rename_i hold
    exact iff_of_true rfl hold
  · rename_i hold
    exact iff_of_false h hold

theorem plain_renamedKey {k : String} (hk : Plain k) (hnew : Plain new) :
    Plain (Json.renamedKey old new k) := by
  unfold Json.renamedKey
  split
  · exact hnew
  · exact hk

/-- The pairs of the new key stand on the lines of those of the old key. -/
theorem pairLinesFrom_respelled (h : Respelled old new s t) (hold : Plain old) (hnew : Plain new)
    (holdHead : old.toList.head? = some '_') (hnewHead : new.toList.head? = some '_')
    (hvalue : Plain value) (line : Nat) :
    pairLinesFrom old value 0 line s = pairLinesFrom new value 0 line t := by
  induction h generalizing line with
  | nil => rfl
  | other hc _ ih =>
    rw [pairLinesFrom_cons (afterPair?_of_ne_quote hc _ _ _),
      pairLinesFrom_cons (afterPair?_of_ne_quote hc _ _ _), ih]
  | string hbody hs hrest ih =>
    rw [pairLinesFrom_string hbody hs holdHead hold,
      pairLinesFrom_string hbody (hs.of_respelled hrest) hnewHead hnew, ih]
  | pair hk hne hgap hbody hs hrest ih =>
    rw [pairLinesFrom_pair hk hgap hbody hs holdHead hold hvalue,
      pairLinesFrom_pair (plain_renamedKey hk hnew) hgap hbody (hs.of_respelled hrest) hnewHead hnew
        hvalue, ih]
    simp only [renamedKey_eq_new_iff hne]
  | @key k gap c s t hk hne hgap hquote hblank _ ih =>
    have hnone : ∀ key' k' rest', Plain k' → Plain key' →
        afterPair? key' value (quotedText k' ++ (gap ++ c :: rest')) = none := by
      intro key' k' rest' hk' hkey'
      rw [afterPair?_key hk' hkey' hgap (by rintro _ ⟨⟩; exact hblank)]
      split
      · simp [dropPrefix?, quotedText_eq, Ne.symm hquote]
      · rfl
    rw [pairLinesFrom_key hk hgap holdHead (hnone _ _ _ hk hold),
      pairLinesFrom_key (plain_renamedKey hk hnew) hgap hnewHead
        (hnone _ _ _ (plain_renamedKey hk hnew) hnew), ih]

end BlockCheck.Text
