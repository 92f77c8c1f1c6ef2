/-!
# White space and line breaks

White space is what Unicode calls so, together with the four separators of the C0 range. The
breaks between lines are a part of it.
-/

namespace BlockCheck.Text

def blankRanges : List (Nat × Nat) :=
  [(0x09, 0x0D), (0x1C, 0x20), (0x85, 0x85), (0xA0, 0xA0), (0x1680, 0x1680), (0x2000, 0x200A),
    (0x2028, 0x2029), (0x202F, 0x202F), (0x205F, 0x205F), (0x3000, 0x3000)]

def within (ranges : List (Nat × Nat)) (c : Char) : Bool :=
  ranges.any (fun r => r.1 ≤ c.toNat && c.toNat ≤ r.2)

def isBlank (c : Char) : Bool := within blankRanges c

/-- The characters after which a new line starts. -/
def isLineBreak (c : Char) : Bool :=
  within [(0x0A, 0x0D), (0x1C, 0x1E), (0x85, 0x85), (0x2028, 0x2029)] c

theorem isBlank_of_isWhitespace (c : Char) (h : c.isWhitespace) : isBlank c := by
  simp only [Char.isWhitespace, Bool.or_eq_true, decide_eq_true_eq] at h
  rcases h with ((h | h) | h) | h <;> subst h <;> decide

theorem isBlank_of_isLineBreak (c : Char) (h : isLineBreak c) : isBlank c := by
  simp only [isLineBreak, isBlank, within, blankRanges, List.any_cons, List.any_nil, Bool.or_false,
    Bool.or_eq_true, Bool.and_eq_true, decide_eq_true_eq] at h ⊢
  omega

def trimEnd (s : String) : String := String.ofList (s.toList.reverse.dropWhile isBlank).reverse

end BlockCheck.Text
