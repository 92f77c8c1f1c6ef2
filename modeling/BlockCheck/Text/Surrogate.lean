import BlockCheck.Text.Quoted

/-!
# Halves of surrogate pairs

An escape can write half of a surrogate pair. On its own it is a code point like others, but one that has no
bytes. It is kept as a noncharacter and, behind it, a private character that tells which half it is. A text in
which the two already stand next to each other is not told apart from it.
-/

namespace BlockCheck.Text.Surrogate

def isHigh (u : Nat) : Bool := 0xD800 ≤ u && u < 0xDC00

def isLow (u : Nat) : Bool := 0xDC00 ≤ u && u < 0xE000

def isHalf (u : Nat) : Bool := isHigh u || isLow u

def mark : Char := Char.ofNat 0x10FFFF

def ofHalf (u : Nat) : List Char := [mark, Char.ofNat (0xF0000 + (u - 0xD800))]

/-- The half that two characters next to each other stand for. -/
def half? (c d : Char) : Option Nat :=
  if c = mark ∧ 0xF0000 ≤ d.toNat ∧ d.toNat < 0xF0800 then some (d.toNat - 0xF0000 + 0xD800) else none

def codePoints : List Char → List Nat
  | [] => []
  | [c] => [c.toNat]
  | c :: d :: rest =>
    match half? c d with
    | some u => u :: codePoints rest
    | none => c.toNat :: codePoints (d :: rest)

def isUnencodable (name : String) : Bool := (codePoints name.toList).any isHalf

/-- What is said of a name that has no bytes: where the first halves stand, up to the next whole character. -/
def unencodableMessage (name : String) : String :=
  let points := codePoints name.toList
  let start := (points.takeWhile (!isHalf ·)).length
  let halves := (points.drop start).takeWhile isHalf
  let place := match halves with
    | [u] => " '\\u" ++ String.ofList (hexText 4 u) ++ "' in position " ++ toString start
    | _ => "s in position " ++ toString start ++ "-" ++ toString (start + halves.length - 1)
  "'utf-8' codec can't encode character" ++ place ++ ": surrogates not allowed"

theorem isHalf_iff {u : Nat} : isHalf u = true ↔ 0xD800 ≤ u ∧ u < 0xE000 := by
  simp only [isHalf, isHigh, isLow, Bool.or_eq_true, Bool.and_eq_true, decide_eq_true_eq]
  omega

theorem not_isHalf_toNat (c : Char) : isHalf c.toNat = false := by
  have hvalid : c.toNat < 0xD800 ∨ 0xDFFF < c.toNat ∧ c.toNat < 0x110000 := c.valid
  rw [← Bool.not_eq_true, isHalf_iff]
  omega

theorem half?_ofHalf {u : Nat} (hu : isHalf u = true) :
    half? mark (Char.ofNat (0xF0000 + (u - 0xD800))) = some u := by
  obtain ⟨hlow, hhigh⟩ := isHalf_iff.1 hu
  have hprivate : (Char.ofNat (0xF0000 + (u - 0xD800))).toNat = 0xF0000 + (u - 0xD800) := by
    rw [Char.ofNat, dif_pos (Or.inr ⟨by omega, by omega⟩)]
    rfl
  generalize Char.ofNat (0xF0000 + (u - 0xD800)) = d at hprivate
  unfold half?
  rw [if_pos ⟨rfl, by omega, by omega⟩, Option.some_inj]
  omega

theorem codePoints_ofHalf {u : Nat} (hu : isHalf u = true) (rest : List Char) :
    codePoints (ofHalf u ++ rest) = u :: codePoints rest := by
  unfold ofHalf
  rw [List.cons_append, List.cons_append, List.nil_append, codePoints, half?_ofHalf hu]

theorem codePoints_of_not_mem {cs : List Char} (h : mark ∉ cs) : codePoints cs = cs.map Char.toNat := by
  induction cs with
  | nil => rfl
  | cons c rest ih =>
    have hhalf : ∀ d, half? c d = none := by
      intro d
      refine if_neg fun hmark => h ?_
      exact hmark.1 ▸ List.mem_cons_self
    have hrest := ih fun hmem => h (List.mem_cons_of_mem c hmem)
    cases rest with
    | nil => rfl
    | cons d rest =>
      rw [codePoints, hhalf]
      exact congrArg (c.toNat :: ·) hrest

theorem isUnencodable_of_not_mem {name : String} (h : mark ∉ name.toList) : isUnencodable name = false := by
  unfold isUnencodable
  rw [codePoints_of_not_mem h, List.any_map, List.any_eq_false]
  exact fun c _ => Bool.eq_false_iff.1 (not_isHalf_toNat c)

end BlockCheck.Text.Surrogate
