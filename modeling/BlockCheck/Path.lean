import BlockCheck.Text.Affix

/-!
# Paths

Paths are texts whose components are separated by slashes. A path that starts with a slash is
absolute.
-/

namespace BlockCheck.Path

def isAbsolute (path : String) : Bool := Text.startsWith path "/"

def components (path : String) : List (List Char) := Text.splitOn '/' path.toList

/-- Goes one component further along `done`, the components so far in reverse. A parent step
takes the last one back; at the start of a relative path it stays. -/
def advance (absolute : Bool) (done : List (List Char)) (component : List Char) : List (List Char) :=
  if component = [] ∨ component = ['.'] then done
  else if component ≠ ['.', '.'] then component :: done
  else match done with
    | [] => if absolute then [] else [component]
    | last :: before => if last = ['.', '.'] then component :: done else before

def reduce (absolute : Bool) (components : List (List Char)) : List (List Char) :=
  (components.foldl (advance absolute) []).reverse

def joinComponents (components : List (List Char)) : List Char := ['/'].intercalate components

/-- Exactly two slashes at the front are kept as they are. -/
def rootMark : List Char → List Char
  | '/' :: '/' :: '/' :: _ => ['/']
  | '/' :: '/' :: _ => ['/', '/']
  | '/' :: _ => ['/']
  | _ => []

/-- The path without empty components, dots, and steps to a parent that can be taken back. -/
def normalize (path : String) : String :=
  let mark := rootMark path.toList
  let body := mark ++ joinComponents (reduce (!mark.isEmpty) (components path))
  if body.isEmpty then "." else String.ofList body

/-- `path` as seen from the directory `base`. -/
def append (base path : String) : String :=
  if isAbsolute path then path
  else if base.isEmpty || Text.endsWith base "/" then base ++ path
  else base ++ "/" ++ path

/-- The absolute path, from one slash on, of what a path names in the directory `cwd`. -/
def resolve (cwd path : String) : String :=
  String.ofList ('/' :: joinComponents (reduce true (components (append cwd path))))

/-- The path without empty components and dots. Steps to a parent stay. -/
def tidy (path : String) : String :=
  let mark := rootMark path.toList
  let body := mark ++ joinComponents ((components path).filter (fun c => c ≠ [] ∧ c ≠ ['.']))
  if body.isEmpty then "." else String.ofList body

def below (base path : String) : String := tidy (append base path)

def withSlashes (path : String) : String := path.map (fun c => if c = '\\' then '/' else c)

def parts (path : String) : List String :=
  let mark := rootMark path.toList
  (if mark.isEmpty then [] else [String.ofList mark])
    ++ ((components path).filter (fun c => c ≠ [] ∧ c ≠ ['.'])).map String.ofList

/-- Decided by the first component in which they differ; a path comes before those below it. -/
def inOrder : List String → List String → Bool
  | [], _ => true
  | _ :: _, [] => false
  | a :: as, b :: bs => if a = b then inOrder as bs else decide (a ≤ b)

def sorted (paths : List String) : List String :=
  paths.mergeSort (fun a b => inOrder (parts a) (parts b))

/-- The path from the directory `base` on, if it lies below it; else the whole path. -/
def within (base path : String) : String :=
  let start := parts base
  if isAbsolute base = isAbsolute path ∧ start.isPrefixOf (parts path) then
    let rest := (parts path).drop start.length
    if rest.isEmpty then "." else Text.join "/" rest
  else path

def directory (path : String) : String :=
  let mark := rootMark path.toList
  let body := mark ++ joinComponents (((components path).filter (· ≠ [])).dropLast)
  if body.isEmpty then "." else String.ofList body

/-- What stands before the last slash, without the slashes at its end. -/
def parent (path : String) : String :=
  let head := (path.toList.reverse.dropWhile (· ≠ '/')).reverse
  if head.all (· = '/') then String.ofList head
  else String.ofList (head.reverse.dropWhile (· = '/')).reverse

def fileName (path : String) : String :=
  String.ofList (path.toList.reverse.takeWhile (· ≠ '/')).reverse

/-- The components of the path as seen from the directory `cwd`. -/
def absoluteComponents (cwd path : String) : List (List Char) :=
  (components (normalize (append cwd path))).filter (· ≠ [])

def dropCommon : List (List Char) → List (List Char) → List (List Char) × List (List Char)
  | a :: as, b :: bs => if a = b then dropCommon as bs else (a :: as, b :: bs)
  | as, bs => (as, bs)

/-- The way from the directory `start` to `path`, both seen from `cwd`. -/
def relative (cwd start path : String) : String :=
  let (up, down) := dropCommon (absoluteComponents cwd start) (absoluteComponents cwd path)
  let steps := up.map (fun _ => ['.', '.']) ++ down
  if steps.isEmpty then "." else String.ofList (joinComponents steps)

inductive Fault where
  | noPath
deriving DecidableEq, Repr

def Fault.message : Fault → String
  | .noPath => "no path specified"

/-- The way to a path, which must not be empty. -/
def wayTo (cwd start path : String) : Except Fault String :=
  if path.isEmpty then .error .noPath else .ok (relative cwd start path)

/-! ## Entries of a directory -/

structure IsName (name : String) : Prop where
  noSlash : '/' ∉ name.toList
  ne_empty : name.toList ≠ []
  ne_dot : name.toList ≠ ['.']
  ne_dots : name.toList ≠ ['.', '.']

/-- The last step of the path is to the entry `name`. -/
def LeadsTo (path name : String) : Prop := ∃ before, components path = before ++ [name.toList]

theorem components_append (base path : String) :
    ∃ before, components (append base path) = before ++ components path := by
  unfold append
  split
  · exact ⟨[], rfl⟩
  split
  · rename_i hslash
    rcases Bool.or_eq_true _ _ ▸ hslash with hempty | hend
    · exact ⟨[], by simp [String.isEmpty_iff.1 hempty]⟩
    · obtain ⟨front, hfront⟩ := List.isSuffixOf_iff_suffix.1 hend
      refine ⟨Text.splitOn '/' front, ?_⟩
      rw [components, String.toList_append, ← hfront]
      simp [Text.splitOn_append_cons, components]
  · refine ⟨components base, ?_⟩
    simp [components, Text.splitOn_append_cons]

theorem leadsTo_append {path name : String} (h : LeadsTo path name) (base : String) :
    LeadsTo (append base path) name := by
  obtain ⟨before, hbefore⟩ := h
  obtain ⟨front, hfront⟩ := components_append base path
  exact ⟨front ++ before, by rw [hfront, hbefore, List.append_assoc]⟩

theorem IsName.leadsTo {name : String} (h : IsName name) (base : String) :
    LeadsTo (append base name) name :=
  leadsTo_append ⟨[], Text.splitOn_of_not_mem h.noSlash⟩ base

theorem IsName.advance {name : String} (h : IsName name) (absolute : Bool)
    (done : List (List Char)) : advance absolute done name.toList = name.toList :: done := by
  unfold Path.advance
  rw [if_neg (not_or.2 ⟨h.ne_empty, h.ne_dot⟩), if_pos h.ne_dots]

theorem joinComponents_concat (front : List (List Char)) (last : List Char) :
    joinComponents (front ++ [last]) = front.flatMap (· ++ ['/']) ++ last := by
  induction front with
  | nil => simp [joinComponents]
  | cons c rest ih =>
    rw [joinComponents] at ih ⊢
    cases rest with
    | nil => simp [List.intercalate]
    | cons d rest => simp_all [List.intercalate]

theorem fileName_append {before : List Char} {name : String} (h : '/' ∉ name.toList)
    (hbefore : before = [] ∨ ∃ front, before = front ++ ['/']) :
    fileName (String.ofList (before ++ name.toList)) = name := by
  have hname : ∀ c ∈ name.toList.reverse, decide (c ≠ '/') = true := by
    intro c hc
    rw [List.mem_reverse] at hc
    exact decide_eq_true fun he => h (he ▸ hc)
  have hstop : before.reverse.takeWhile (fun c => decide (c ≠ '/')) = [] := by
    rcases hbefore with rfl | ⟨front, rfl⟩
    · rfl
    · simp
  rw [fileName, String.toList_ofList, List.reverse_append, List.takeWhile_append_of_pos hname, hstop]
  simp

theorem fileName_joinComponents {mark : List Char} {name : String} (h : '/' ∉ name.toList)
    (hmark : mark = [] ∨ ∃ front, mark = front ++ ['/']) (front : List (List Char)) :
    fileName (String.ofList (mark ++ joinComponents (front ++ [name.toList]))) = name := by
  rw [joinComponents_concat, ← List.append_assoc]
  apply fileName_append h
  rcases List.eq_nil_or_concat front with rfl | ⟨more, last, rfl⟩
  · simpa using hmark
  · exact Or.inr ⟨mark ++ more.flatMap (· ++ ['/']) ++ last, by simp⟩

theorem rootMark_eq (path : List Char) :
    rootMark path = [] ∨ ∃ front, rootMark path = front ++ ['/'] := by
  unfold rootMark
  split
  · exact Or.inr ⟨[], rfl⟩
  · exact Or.inr ⟨['/'], rfl⟩
  · exact Or.inr ⟨[], rfl⟩
  · exact Or.inl rfl

theorem fileName_normalize {path name : String} (h : IsName name) (hpath : LeadsTo path name) :
    fileName (normalize path) = name := by
  obtain ⟨before, hbefore⟩ := hpath
  have hreduce (absolute : Bool) :
      reduce absolute (components path) = reduce absolute before ++ [name.toList] := by
    rw [hbefore, reduce, List.foldl_append, List.foldl_cons, List.foldl_nil, h.advance,
      List.reverse_cons, reduce]
  simp only [normalize, hreduce]
  rw [if_neg, fileName_joinComponents h.noSlash (rootMark_eq path.toList)]
  rw [joinComponents_concat]
  simp [h.ne_empty]

end BlockCheck.Path
