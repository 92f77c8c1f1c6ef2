import BlockCheck.Text.Line
import Mathlib.Data.List.Basic
import Mathlib.Data.List.Infix

/-!
# The line of the first occurrence

The search for the first line that holds a needle finds the line on which the needle first occurs in the
text as a whole, as long as it does not go on over a break. The number of that line is one more than the
breaks in front of it. In a text whose only breaks are line feeds this is the number that a pair of a key
and a value gets by counting line feeds.
-/

namespace BlockCheck.Text

/-- How many breaks there are; a carriage return and the line feed after it are one. -/
def breaks : List Char → Nat
  | [] => 0
  | '\r' :: '\n' :: rest => breaks rest + 1
  | c :: rest => if isLineBreak c then breaks rest + 1 else breaks rest

/-- `before` is what stands in front of the first occurrence of a needle. -/
structure FirstAt (needle s before : List Char) : Prop where
  occurs : ∃ after, s = before ++ needle ++ after
  first : ∀ front after, s = front ++ needle ++ after → before.length ≤ front.length

variable {needle s rest before line : List Char} {lines : List (List Char)} {c : Char}

/-! ## The first occurrence -/

namespace FirstAt

theorem here (h : needle <+: s) : FirstAt needle s [] where
  occurs := by
    obtain ⟨after, rfl⟩ := h
    exact ⟨after, rfl⟩
  first _ _ _ := Nat.zero_le _

theorem later (hnot : ¬needle <+: c :: rest) (h : FirstAt needle rest before) :
    FirstAt needle (c :: rest) (c :: before) where
  occurs := by
    obtain ⟨after, rfl⟩ := h.occurs
    exact ⟨after, rfl⟩
  first front after heq := by
    cases front with
    | nil => exact absurd ⟨after, heq.symm⟩ hnot
    | cons d front =>
      rw [List.cons_append, List.cons_append, List.cons.injEq] at heq
      exact Nat.succ_le_succ (h.first front after heq.2)

theorem eq_nil (h : FirstAt needle s before) (hstarts : needle <+: s) : before = [] := by
  obtain ⟨after, hafter⟩ := hstarts
  exact List.eq_nil_of_length_eq_zero (Nat.le_zero.1 (h.first [] after hafter.symm))

theorem exists_cons (h : FirstAt needle (c :: rest) before) (hnot : ¬needle <+: c :: rest) :
    ∃ more, before = c :: more ∧ FirstAt needle rest more := by
  obtain ⟨after, heq⟩ := h.occurs
  cases before with
  | nil => exact absurd ⟨after, heq.symm⟩ hnot
  | cons d more =>
    rw [List.cons_append, List.cons_append, List.cons.injEq] at heq
    obtain ⟨rfl, hrest⟩ := heq
    refine ⟨more, rfl, ⟨after, hrest⟩, fun front after' heq' => ?_⟩
    exact Nat.le_of_succ_le_succ (h.first (c :: front) after' (by rw [heq']; rfl))

end FirstAt

theorem exists_firstAt (h : needle <:+: s) : ∃ before, FirstAt needle s before := by
  induction s with
  | nil => exact ⟨[], .here (by rw [List.infix_nil.1 h])⟩
  | cons c rest ih =>
    by_cases hhere : needle <+: c :: rest
    · exact ⟨[], .here hhere⟩
    · obtain ⟨before, hbefore⟩ := ih ((List.infix_cons_iff.1 h).resolve_left hhere)
      exact ⟨c :: before, hbefore.later hhere⟩

/-! ## Lines -/

theorem eq_nil_of_splitLines (h : splitLines s = []) : s = [] := by
  fun_induction splitLines s with
  | case1 => rfl
  | _ => cases h

theorem head_splitLines (h : splitLines s = line :: lines) :
    line = s.takeWhile fun c => !isLineBreak c := by
  fun_induction splitLines s generalizing line lines with
  | case1 => cases h
  | case2 =>
    cases h
    rfl
  | case3 _ _ _ hbreak =>
    cases h
    rw [List.takeWhile_cons_of_neg (by simp [hbreak])]
  | case4 c rest _ hbreak hrest =>
    cases h
    rw [eq_nil_of_splitLines hrest, List.takeWhile_cons_of_pos (by simp [hbreak]), List.takeWhile_nil]
  | case5 c rest _ hbreak first more hrest ih =>
    cases h
    rw [List.takeWhile_cons_of_pos (by simp [hbreak]), ← ih hrest]

theorem infix_of_mem_splitLines (h : line ∈ splitLines s) : line <:+: s := by
  fun_induction splitLines s with
  | case1 => cases h
  | case2 rest ih =>
    rcases List.mem_cons.1 h with rfl | h
    · exact List.nil_infix
    · exact List.infix_cons (List.infix_cons (ih h))
  | case3 c rest _ _ ih =>
    rcases List.mem_cons.1 h with rfl | h
    · exact List.nil_infix
    · exact List.infix_cons (ih h)
  | case4 c rest _ _ hrest =>
    rw [eq_nil_of_splitLines hrest, List.mem_singleton.1 h]
  | case5 c rest _ _ first more hrest ih =>
    rcases List.mem_cons.1 h with rfl | h
    · rw [head_splitLines hrest]
      exact ((List.prefix_cons_inj c).2 (List.takeWhile_prefix _)).isInfix
    · exact List.infix_cons (ih (hrest ▸ List.mem_cons_of_mem first h))

theorem prefix_takeWhile_iff (h : ∀ c ∈ needle, isLineBreak c = false) :
    needle <+: s.takeWhile (fun c => !isLineBreak c) ↔ needle <+: s := by
  refine ⟨fun hstarts => hstarts.trans (List.takeWhile_prefix _), ?_⟩
  rintro ⟨after, rfl⟩
  rw [List.takeWhile_append_of_pos fun c hc => by simp [h c hc]]
  exact List.prefix_append _ _

theorem occursIn_cons_takeWhile (hneedle : ∀ c ∈ needle, isLineBreak c = false)
    (hc : ¬isLineBreak c = true) (rest : List Char) :
    occursIn needle (c :: rest.takeWhile fun c => !isLineBreak c) = true ↔
      needle <+: c :: rest ∨ occursIn needle (rest.takeWhile fun c => !isLineBreak c) = true := by
  have hline : (c :: rest).takeWhile (fun c => !isLineBreak c) =
      c :: rest.takeWhile fun c => !isLineBreak c := List.takeWhile_cons_of_pos (by simp [hc])
  rw [occursIn, Bool.or_eq_true, List.isPrefixOf_iff_prefix, ← hline, prefix_takeWhile_iff hneedle]

theorem breaks_cons_of_isLineBreak (hc : isLineBreak c = true)
    (hpair : ∀ more, c = '\r' → before = '\n' :: more → False) :
    breaks (c :: before) = breaks before + 1 := by
  rw [breaks, if_pos hc]
  exact hpair

theorem breaks_cons_of_not_isLineBreak (hc : ¬isLineBreak c = true) :
    breaks (c :: before) = breaks before := by
  rw [breaks, if_neg hc]
  rintro more rfl -
  exact hc (by decide)

/-! ## The line that is found -/

section Needle

variable (hne : needle ≠ []) (hneedle : ∀ c ∈ needle, isLineBreak c = false)

include hne

theorem not_occursIn_nil : ¬occursIn needle [] = true := by
  rw [occursIn_iff, List.infix_nil]
  exact hne

theorem not_firstAt_nil : ¬FirstAt needle [] before := by
  intro h
  obtain ⟨after, hafter⟩ := h.occurs
  simp [hne] at hafter

include hneedle

theorem not_prefix_of_isLineBreak (hc : isLineBreak c = true) : ¬needle <+: c :: rest := by
  rintro ⟨after, heq⟩
  obtain ⟨d, more, rfl⟩ := List.exists_cons_of_ne_nil hne
  obtain rfl : d = c := (List.cons.inj heq).1
  rw [hneedle d List.mem_cons_self] at hc
  cases hc

theorem findIdx?_splitLines (h : FirstAt needle s before) :
    (splitLines s).findIdx? (occursIn needle) = some (breaks before) := by
  fun_induction splitLines s generalizing before with
  | case1 => exact absurd h (not_firstAt_nil hne)
  | case2 rest ih =>
    -- A carriage return and the line feed after it are one break.
    obtain ⟨_, rfl, hfeed⟩ := h.exists_cons (not_prefix_of_isLineBreak hne hneedle (by decide))
    obtain ⟨more, rfl, hmore⟩ := hfeed.exists_cons (not_prefix_of_isLineBreak hne hneedle (by decide))
    rw [List.findIdx?_cons, if_neg (not_occursIn_nil hne), ih hmore, breaks, Option.map_some]
  | case3 c rest hpair hbreak ih =>
    obtain ⟨more, rfl, hmore⟩ := h.exists_cons (not_prefix_of_isLineBreak hne hneedle hbreak)
    have hcount : breaks (c :: more) = breaks more + 1 := by
      refine breaks_cons_of_isLineBreak hbreak fun tail hreturn htail => ?_
      obtain ⟨after, rfl⟩ := hmore.occurs
      exact hpair _ hreturn (by rw [htail]; rfl)
    rw [List.findIdx?_cons, if_neg (not_occursIn_nil hne), ih hmore, hcount, Option.map_some]
  | case4 c rest _ hbreak hrest ih =>
    -- This is the last character of the last line.
    obtain rfl := eq_nil_of_splitLines hrest
    by_cases hhere : needle <+: [c]
    · rw [h.eq_nil hhere, List.findIdx?_cons, if_pos (occursIn_iff _ _ |>.2 hhere.isInfix), breaks]
    · obtain ⟨more, -, hmore⟩ := h.exists_cons hhere
      exact absurd hmore (not_firstAt_nil hne)
  | case5 c rest _ hbreak first others hrest ih =>
    have hline := occursIn_cons_takeWhile hneedle hbreak rest
    rw [← head_splitLines hrest] at hline
    by_cases hhere : needle <+: c :: rest
    · rw [h.eq_nil hhere, List.findIdx?_cons, if_pos (hline.2 (.inl hhere)), breaks]
    · -- What is not in front of the line stands in the line as it is without its first character.
      obtain ⟨more, rfl, hmore⟩ := h.exists_cons hhere
      have hsame : occursIn needle (c :: first) = occursIn needle first :=
        Bool.eq_iff_iff.2 (hline.trans (or_iff_right hhere))
      rw [List.findIdx?_cons, hsame, ← List.findIdx?_cons, ← hrest, ih hmore,
        breaks_cons_of_not_isLineBreak hbreak]

end Needle

theorem breaks_eq_count (h : ∀ c ∈ s, isLineBreak c = true → c = '\n') : breaks s = s.count '\n' := by
  fun_induction breaks s with
  | case1 => rfl
  | case2 rest =>
    have hreturn := h '\r' List.mem_cons_self (by decide)
    exact absurd hreturn (by decide)
  | case3 c rest _ hbreak ih =>
    obtain ⟨hc, hrest⟩ := List.forall_mem_cons.1 h
    rw [ih hrest, hc hbreak, List.count_cons_self]
  | case4 c rest _ hbreak ih =>
    obtain ⟨-, hrest⟩ := List.forall_mem_cons.1 h
    rw [ih hrest, List.count_cons_of_ne]
    rintro rfl
    exact hbreak (by decide)

/-! ## The lines of pairs -/

theorem exists_of_mem_pairLinesFrom {key value : String} {skip line n : ℕ} (front : List Char)
    (hline : line = front.count '\n' + 1) (h : n ∈ pairLinesFrom key value skip line s) :
    ∃ before after, front ++ s = before ++ after ∧ (afterPair? key value after).isSome = true ∧
      n = before.count '\n' + 1 := by
  induction s generalizing skip line front with
  | nil => cases skip <;> cases h
  | cons c rest ih =>
    have hgo (skip : ℕ) (h : n ∈ pairLinesFrom key value skip (if c = '\n' then line + 1 else line) rest) :
        ∃ before after, front ++ c :: rest = before ++ after ∧
          (afterPair? key value after).isSome = true ∧ n = before.count '\n' + 1 := by
      have hnext : (if c = '\n' then line + 1 else line) = (front ++ [c]).count '\n' + 1 := by
        rw [hline, List.count_append, List.count_singleton]
        split <;> simp_all
      simpa using ih (front ++ [c]) hnext h
    cases skip with
    | succ skip => exact hgo skip h
    | zero =>
      rw [pairLinesFrom] at h
      cases hafter : afterPair? key value (c :: rest) with
      | none =>
        rw [hafter] at h
        exact hgo 0 h
      | some after =>
        rw [hafter] at h
        rcases List.mem_cons.1 h with rfl | h
        · exact ⟨front, c :: rest, rfl, by rw [hafter]; rfl, hline⟩
        · exact hgo _ h

/-- A needle that goes over no break is not found if and only if it does not occur. Otherwise its line is
one more than the breaks in front of its first occurrence, which is the number of the line feeds there and
one more if there are no other breaks. Pairs get their lines by the same rule, whatever breaks there are. -/
theorem lineOf?_of_needle {content needle : String} (hne : needle ≠ "")
    (hneedle : ∀ c ∈ needle.toList, isLineBreak c = false) :
    (lineOf? content needle = none ↔ ¬needle.toList <:+: content.toList) ∧
      (needle.toList <:+: content.toList → ∃ before, FirstAt needle.toList content.toList before ∧
        lineOf? content needle = some (breaks before + 1) ∧
        ((∀ c ∈ content.toList, isLineBreak c = true → c = '\n') →
          lineOf? content needle = some (before.count '\n' + 1))) ∧
      ∀ key value n line, pairLine? content key value n = some line →
        ∃ before after, content.toList = before ++ after ∧ (afterPair? key value after).isSome = true ∧
          line = before.count '\n' + 1 := by
  have hlist : needle.toList ≠ [] := mt String.toList_eq_nil_iff.1 hne
  have hfound (before : List Char) (h : FirstAt needle.toList content.toList before) :
      lineOf? content needle = some (breaks before + 1) := by
    rw [lineOf?, findIdx?_splitLines hlist hneedle h, Option.map_some]
  refine ⟨⟨fun hnone hoccurs => ?_, fun hnot => ?_⟩, fun hoccurs => ?_, fun key value n line hline => ?_⟩
  · obtain ⟨before, hbefore⟩ := exists_firstAt hoccurs
    rw [hfound before hbefore] at hnone
    cases hnone
  · rw [lineOf?, Option.map_eq_none_iff, List.findIdx?_eq_none_iff]
    intro line hline
    rw [Bool.eq_false_iff, ne_eq, occursIn_iff]
    exact fun hoccurs => hnot (hoccurs.trans (infix_of_mem_splitLines hline))
  · obtain ⟨before, hbefore⟩ := exists_firstAt hoccurs
    refine ⟨before, hbefore, hfound before hbefore, fun hfeeds => ?_⟩
    obtain ⟨after, hafter⟩ := hbefore.occurs
    rw [hfound before hbefore, breaks_eq_count fun c hc => hfeeds c (by rw [hafter]; simp [hc])]
  · exact exists_of_mem_pairLinesFrom [] rfl (List.mem_of_getElem? hline)

def mixedBreaks : String := "[\r\n\"L\",\x0b\"a\"\r, \"Lazy\",\n\"Lazy\"]"

theorem lineOf?_mixedBreaks :
    "Lazy" ≠ "" ∧ (∀ c ∈ "Lazy".toList, isLineBreak c = false) ∧
      "Lazy".toList <:+: mixedBreaks.toList ∧
      ∃ before, FirstAt "Lazy".toList mixedBreaks.toList before ∧ breaks before = 3 ∧
        lineOf? mixedBreaks "Lazy" = some (breaks before + 1) := by
  have hneedle : ∀ c ∈ "Lazy".toList, isLineBreak c = false := by simp [isLineBreak, within]
  have hoccurs : "Lazy".toList <:+: mixedBreaks.toList := (occursIn_iff _ _).1 (by decide)
  obtain ⟨before, hbefore, hline, -⟩ := (lineOf?_of_needle (by decide) hneedle).2.1 hoccurs
  have hnumber : lineOf? mixedBreaks "Lazy" = some 4 := by decide
  have hbreaks : breaks before = 3 := by simpa [hnumber, eq_comm] using hline
  exact ⟨by decide, hneedle, hoccurs, before, hbefore, hbreaks, hline⟩

end BlockCheck.Text
