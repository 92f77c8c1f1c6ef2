import BlockCheck.Proofs.Schema.Placed

/-!
# The texts of locations

A location is written in the same way on its own and step by step on the way down to it, once it has a
step and none of its keys holds a sign that a step begins with. Such a text can be read in one way only:
a dot begins a key, a bracket an index, and everything up to the next of them belongs to the step.
-/

namespace BlockCheck

def stepSigns : List Char := ['.', '[']

namespace Step

def Plain : Step → Prop
  | .key name => name ≠ "" ∧ ∀ sign ∈ stepSigns, sign ∉ name.toList
  | .index _ => True

instance : DecidablePred Plain
  | .key name =>
    @instDecidableAnd (name ≠ "") _ inferInstance (List.decidableBAll (· ∉ name.toList) stepSigns)
  | .index _ => inferInstanceAs (Decidable True)

variable {step other : Step} {name : String}

theorem toList_text_index (i : Nat) :
    (Step.index i).text.toList = '[' :: (Nat.toDigits 10 i ++ [']']) := by
  rw [text, String.toList_append, String.toList_append, ← Nat.toList_repr]
  rfl

theorem isBracketed_index (i : Nat) : (Step.index i).isBracketed = true := by
  rw [isBracketed, toList_text_index]
  rfl

theorem isBracketed_key (h : (Step.key name).Plain) : (Step.key name).isBracketed = false := by
  rw [Bool.eq_false_iff, isBracketed, ne_eq, List.isPrefixOf_iff_prefix]
  intro hbracket
  exact h.2 '[' (by decide) (hbracket.subset (by decide))

theorem exists_cons_text (h : step.Plain) :
    ∃ c rest, step.text.toList = c :: rest ∧ ∀ d ∈ rest, d ∉ stepSigns := by
  cases step with
  | key name =>
    obtain ⟨hne, hsigns⟩ := h
    cases hname : name.toList with
    | nil => exact absurd (String.toList_eq_nil_iff.1 hname) hne
    | cons c rest =>
      refine ⟨c, rest, hname, fun d hd hsign => hsigns d hsign ?_⟩
      rw [hname]
      exact List.mem_cons_of_mem c hd
  | index i =>
    refine ⟨'[', _, toList_text_index i, fun d hd => ?_⟩
    rcases List.mem_append.1 hd with hd | hd
    · have hdigit := Nat.isDigit_of_mem_toDigits (by decide) (by decide) hd
      intro hsign
      simp only [stepSigns, List.mem_cons, List.not_mem_nil, or_false] at hsign
      rcases hsign with rfl | rfl <;> exact absurd hdigit (by decide)
    · rw [List.mem_singleton.1 hd]
      decide

theorem text_index_ne_text_key (h : (Step.key name).Plain) (i : Nat) :
    (Step.index i).text ≠ (Step.key name).text := by
  intro heq
  have hname : '[' ∈ name.toList := by
    rw [show name = (Step.index i).text from heq.symm, toList_text_index]
    exact List.mem_cons_self
  exact h.2 '[' (by decide) hname

theorem eq_of_text_eq (h : step.Plain) (hother : other.Plain) (heq : step.text = other.text) :
    step = other := by
  cases step with
  | key name =>
    cases other with
    | key name' => exact congrArg Step.key heq
    | index i => exact absurd heq.symm (text_index_ne_text_key h i)
  | index i =>
    cases other with
    | key name => exact absurd heq (text_index_ne_text_key hother i)
    | index j =>
      have hdigits := congrArg String.toList heq
      rw [toList_text_index, toList_text_index, List.cons.injEq, List.append_left_inj] at hdigits
      have hvalue := congrArg (fun ds => Nat.ofDigitChars 10 ds 0) hdigits.2
      simp only [Nat.ofDigitChars_ten_toDigits] at hvalue
      exact congrArg Step.index hvalue

end Step

namespace Location

def Plain (location : Location) : Prop := ∀ step ∈ location, step.Plain

instance : DecidablePred Plain := fun location => List.decidableBAll Step.Plain location

variable {location other rest rest' : Location} {step step' : Step}

/-! ## Written on its own and on the way down -/

theorem extend_eq_append (h : location.Plain) {base : String} (hbase : base ≠ "") :
    location.extend base = base ++ tailText location := by
  induction location generalizing base with
  | nil => simp [tailText]
  | cons step rest ih =>
    obtain ⟨hstep, hrest⟩ := List.forall_mem_cons.1 h
    have hstepped : extendStep base step =
        base ++ (if step.isBracketed then step.text else "." ++ step.text) := by
      cases step with
      | key name => simp [extendStep, Step.isBracketed_key hstep, Step.text, hbase, String.append_assoc]
      | index i => simp [extendStep, Step.isBracketed_index, Step.text, String.append_assoc]
    have hne : extendStep base step ≠ "" := by
      rw [hstepped]
      simp [hbase]
    rw [extend_cons, ih hrest hne, hstepped, tailText, String.append_assoc]

theorem text_ne_empty (h : step.Plain) : step.text ≠ "" := by
  obtain ⟨c, cs, htext, -⟩ := Step.exists_cons_text h
  intro hempty
  rw [hempty] at htext
  cases htext

theorem text_cons (h : step.Plain) : text (step :: rest) = step.text ++ tailText rest := by
  have hne : step.text ++ tailText rest ≠ "" := by simp [text_ne_empty h]
  simp [text, hne]

theorem text_eq_extend (h : location.Plain) (hne : location ≠ []) :
    location.text = location.extend "" := by
  cases location with
  | nil => exact absurd rfl hne
  | cons step rest =>
    obtain ⟨hstep, hrest⟩ := List.forall_mem_cons.1 h
    have hfirst : extendStep "" step = step.text := by
      cases step <;> simp [extendStep, Step.text]
    rw [extend_cons, hfirst, extend_eq_append hrest (text_ne_empty hstep), text_cons hstep]

/-! ## Reading a written location -/

theorem head?_tailText (h : location.Plain) : ∀ c ∈ (tailText location).toList.head?, c ∈ stepSigns := by
  cases location with
  | nil => simp [tailText]
  | cons step rest =>
    have hstep := List.forall_mem_cons.1 h |>.1
    cases step with
    | key name => simp [tailText, Step.isBracketed_key hstep, stepSigns]
    | index i => simp [tailText, Step.isBracketed_index, Step.toList_text_index, stepSigns]

theorem append_cancel_of_signs {p q s t : List Char} (hp : ∀ c ∈ p, c ∉ stepSigns)
    (hq : ∀ c ∈ q, c ∉ stepSigns) (hs : ∀ c ∈ s.head?, c ∈ stepSigns)
    (ht : ∀ c ∈ t.head?, c ∈ stepSigns) (h : p ++ s = q ++ t) : p = q ∧ s = t := by
  have htake (p s : List Char) (hp : ∀ c ∈ p, c ∉ stepSigns) (hs : ∀ c ∈ s.head?, c ∈ stepSigns) :
      (p ++ s).takeWhile (· ∉ stepSigns) = p := by
    rw [List.takeWhile_append_of_pos fun c hc => decide_eq_true (hp c hc)]
    cases s with
    | nil => simp
    | cons c s => simp [hs c rfl]
  have heq := congrArg (List.takeWhile (· ∉ stepSigns)) h
  rw [htake p s hp hs, htake q t hq ht] at heq
  subst heq
  exact ⟨rfl, List.append_cancel_left h⟩

theorem step_eq_of_append (h : step.Plain) (h' : step'.Plain) (hrest : rest.Plain)
    (hrest' : rest'.Plain) (heq : step.text ++ tailText rest = step'.text ++ tailText rest') :
    step = step' ∧ tailText rest = tailText rest' := by
  obtain ⟨c, cs, htext, hcs⟩ := Step.exists_cons_text h
  obtain ⟨c', cs', htext', hcs'⟩ := Step.exists_cons_text h'
  have hlist := congrArg String.toList heq
  rw [String.toList_append, String.toList_append, htext, htext', List.cons_append, List.cons_append,
    List.cons.injEq] at hlist
  obtain ⟨rfl, hlist⟩ := hlist
  obtain ⟨rfl, htail⟩ := append_cancel_of_signs hcs hcs' (head?_tailText hrest)
    (head?_tailText hrest') hlist
  refine ⟨Step.eq_of_text_eq h h' (String.toList_inj.1 (htext.trans htext'.symm)), ?_⟩
  exact String.toList_inj.1 htail

theorem head?_tailText_cons (h : step.Plain) (rest : Location) :
    (tailText (step :: rest)).toList.head? = some (if step.isBracketed then '[' else '.') := by
  cases step with
  | key name => simp [tailText, Step.isBracketed_key h]
  | index i => simp [tailText, Step.isBracketed_index, Step.toList_text_index]

theorem eq_of_tailText_eq (h : location.Plain) (h' : other.Plain)
    (heq : tailText location = tailText other) : location = other := by
  induction location generalizing other with
  | nil =>
    cases other with
    | nil => rfl
    | cons step' rest' =>
      have hhead := head?_tailText_cons (List.forall_mem_cons.1 h').1 rest'
      rw [← heq] at hhead
      simp [tailText] at hhead
  | cons step rest ih =>
    obtain ⟨hstep, hrest⟩ := List.forall_mem_cons.1 h
    have hhead := head?_tailText_cons hstep rest
    cases other with
    | nil =>
      rw [heq] at hhead
      simp [tailText] at hhead
    | cons step' rest' =>
      obtain ⟨hstep', hrest'⟩ := List.forall_mem_cons.1 h'
      rw [heq, head?_tailText_cons hstep' rest'] at hhead
      -- The sign in front is the same for both, so what stands behind it is the same as well.
      have hbracketed : step'.isBracketed = step.isBracketed := by
        cases hb : step.isBracketed <;> cases hb' : step'.isBracketed <;> simp [hb, hb'] at hhead ⊢
      have happend : step.text ++ tailText rest = step'.text ++ tailText rest' := by
        rw [tailText, tailText, hbracketed] at heq
        split at heq
        · exact heq
        · simpa only [String.append_assoc, String.append_right_inj] using heq
      obtain ⟨rfl, htail⟩ := step_eq_of_append hstep hstep' hrest hrest' happend
      rw [ih hrest hrest' htail]

theorem eq_of_text_eq (h : location.Plain) (hne : location ≠ []) (h' : other.Plain)
    (hne' : other ≠ []) (heq : other.text = location.text) : other = location := by
  obtain ⟨step, rest, rfl⟩ := List.exists_cons_of_ne_nil hne
  obtain ⟨step', rest', rfl⟩ := List.exists_cons_of_ne_nil hne'
  obtain ⟨hstep, hrest⟩ := List.forall_mem_cons.1 h
  obtain ⟨hstep', hrest'⟩ := List.forall_mem_cons.1 h'
  rw [text_cons hstep, text_cons hstep'] at heq
  obtain ⟨rfl, htail⟩ := step_eq_of_append hstep' hstep hrest' hrest heq
  rw [eq_of_tailText_eq hrest' hrest htail]

open Schema in
/-- A location is written alike on its own and on the way of a check down to it, and no other location
is written so. -/
theorem text_of_plain (h : location.Plain) (hne : location ≠ []) :
    location.text = location.extend "" ∧
      (∀ mode s value problem, ⟨location, problem⟩ ∈ check mode s value →
        ⟨location.text, problem⟩ ∈ writtenIssues mode "" s value ∧
          writtenIssues mode "" s value = validate mode "" s value) ∧
      ∀ other : Location, other.Plain → other ≠ [] → other.text = location.text →
        other = location := by
  have htext := text_eq_extend h hne
  refine ⟨htext, fun mode s value problem hproblem => ?_, fun other h' hne' => eq_of_text_eq h hne h' hne'⟩
  have hwritten := writtenIssues_eq mode s "" value
  refine ⟨?_, hwritten⟩
  rw [hwritten, htext]
  exact List.mem_map_of_mem (f := Finding.issue "") hproblem

/-- A bracket that closes is no sign, and may stand in a key. -/
def bracketed : Location := [.key "a b", .index 12, .key "c]"]

theorem text_of_plain_bracketed :
    bracketed.Plain ∧ bracketed ≠ [] ∧ bracketed.text = "a b[12].c]" ∧
      bracketed.extend "" = bracketed.text ∧
      ∀ other : Location, other.Plain → other ≠ [] → other.text = bracketed.text →
        other = bracketed := by
  have hplain : bracketed.Plain := by decide
  have hne : bracketed ≠ [] := by decide
  obtain ⟨htext, -, hothers⟩ := text_of_plain hplain hne
  exact ⟨hplain, hne, by decide, htext.symm, hothers⟩

end Location

end BlockCheck
