import BlockCheck.Proofs.Json.DistinctKeys
import BlockCheck.Proofs.Props.Reading

/-!
# The longest alias

Of all aliases that a specifier starts with, the longest is followed. There is no second one as long, so
neither the order of the aliases nor any other alias makes a difference to the file that is named.
-/

namespace BlockCheck.Props

variable {specifier key file : String} {table table' : ImportMap} {entry other : String × String}

structure Longest (specifier : String) (table : ImportMap) (entry : String × String) : Prop where
  mem : entry ∈ table
  fits : Text.startsWith specifier entry.1 = true
  longest : ∀ other ∈ table, Text.startsWith specifier other.1 = true → other.1.length ≤ entry.1.length

/-! ## There is one at most -/

theorem eq_of_startsWith_of_length {a b : String} (ha : Text.startsWith specifier a = true)
    (hb : Text.startsWith specifier b = true) (hlength : a.length = b.length) : a = b := by
  rw [Text.startsWith, List.isPrefixOf_iff_prefix] at ha hb
  rw [← String.length_toList, ← String.length_toList] at hlength
  exact String.toList_inj.1 ((List.prefix_of_prefix_length_le ha hb (Nat.le_of_eq hlength)).eq_of_length hlength)

theorem Longest.unique (hkeys : (Record.keys table).Nodup) (h : Longest specifier table entry)
    (h' : Longest specifier table other) : entry = other := by
  obtain ⟨name, target⟩ := entry
  obtain ⟨name', target'⟩ := other
  have hlength : name.length = name'.length :=
    Nat.le_antisymm (h'.longest _ h.mem h.fits) (h.longest _ h'.mem h'.fits)
  obtain rfl : name = name' := eq_of_startsWith_of_length h.fits h'.fits hlength
  have htarget := (Record.lookup_of_mem hkeys h.mem).symm.trans (Record.lookup_of_mem hkeys h'.mem)
  rw [Option.some.inj htarget]

theorem longest_congr (h : ∀ entry, entry ∈ table' ↔ entry ∈ table) :
    Longest specifier table' entry ↔ Longest specifier table entry := by
  constructor
  · intro hlongest
    exact ⟨(h _).1 hlongest.mem, hlongest.fits, fun other hother => hlongest.longest other ((h other).2 hother)⟩
  · intro hlongest
    exact ⟨(h _).2 hlongest.mem, hlongest.fits, fun other hother => hlongest.longest other ((h other).1 hother)⟩

/-- What stands under an alias that is not the longest, before and after, is of no account. -/
theorem Longest.of_others (h : Longest specifier table' entry)
    (hothers : ∀ entry, entry.1 ≠ key → (entry ∈ table' ↔ entry ∈ table))
    (hkey' : ∀ target, ¬Longest specifier table' (key, target))
    (hkey : ∀ target, ¬Longest specifier table (key, target)) : Longest specifier table entry := by
  have hentry : entry.1 ≠ key := by
    rintro rfl
    exact hkey' entry.2 h
  have hbounded : ∀ other ∈ table, other.1 ≠ key → Text.startsWith specifier other.1 = true →
      other.1.length ≤ entry.1.length :=
    fun other hother hne hfits => h.longest other ((hothers other hne).2 hother) hfits
  refine ⟨(hothers entry hentry).1 h.mem, h.fits, fun other hother hfits => ?_⟩
  by_cases hne : other.1 = key
  · -- If this alias were longer, it would be the longest one.
    refine Nat.le_of_not_lt fun hlonger => ?_
    subst hne
    refine hkey other.2 ⟨hother, hfits, fun third hthird hthirdFits => ?_⟩
    by_cases hsame : third.1 = other.1
    · exact hsame ▸ Nat.le_refl _
    · exact Nat.le_trans (hbounded third hthird hsame hthirdFits) (Nat.le_of_lt hlonger)
  · exact hbounded other hother hne hfits

/-! ## The search -/

def longer (best : Option (String × String)) (entry : String × String) : Option (String × String) :=
  match best with
  | none => some entry
  | some b => if b.1.length < entry.1.length then some entry else some b

theorem longestAlias_eq_foldl (specifier : String) (table : ImportMap) :
    longestAlias specifier table =
      (table.filter fun entry => Text.startsWith specifier entry.1).foldl longer none := rfl

theorem exists_longer (best : Option (String × String)) (entry : String × String) :
    ∃ found, longer best entry = some found ∧ (found = entry ∨ best = some found) ∧
      entry.1.length ≤ found.1.length ∧ ∀ b ∈ best, b.1.length ≤ found.1.length := by
  cases best with
  | none => exact ⟨entry, rfl, Or.inl rfl, Nat.le_refl _, nofun⟩
  | some b =>
    by_cases hlength : b.1.length < entry.1.length
    · refine ⟨entry, if_pos hlength, Or.inl rfl, Nat.le_refl _, ?_⟩
      rintro _ ⟨⟩
      exact Nat.le_of_lt hlength
    · refine ⟨b, if_neg hlength, Or.inr rfl, Nat.le_of_not_lt hlength, ?_⟩
      rintro _ ⟨⟩
      exact Nat.le_refl _

theorem exists_foldl_longer (l : List (String × String)) (b : String × String) :
    ∃ found, l.foldl longer (some b) = some found ∧ (found = b ∨ found ∈ l) ∧
      b.1.length ≤ found.1.length ∧ ∀ entry ∈ l, entry.1.length ≤ found.1.length := by
  induction l generalizing b with
  | nil => exact ⟨b, rfl, Or.inl rfl, Nat.le_refl _, nofun⟩
  | cons entry rest ih =>
    obtain ⟨better, hstep, hfrom, hentry, hb⟩ := exists_longer (some b) entry
    obtain ⟨found, hfound, hmem, hbetter, hrest⟩ := ih better
    rw [← hstep] at hfound
    refine ⟨found, hfound, ?_, Nat.le_trans (hb b rfl) hbetter, ?_⟩
    · rcases hmem with rfl | hmem
      · rcases hfrom with rfl | hfrom
        · exact Or.inr List.mem_cons_self
        · exact Or.inl (Option.some.inj hfrom).symm
      · exact Or.inr (List.mem_cons_of_mem _ hmem)
    · exact List.forall_mem_cons.2 ⟨Nat.le_trans hentry hbetter, hrest⟩

theorem longestAlias_cases (specifier : String) (table : ImportMap) :
    (longestAlias specifier table = none ∧ ∀ entry ∈ table, Text.startsWith specifier entry.1 = false) ∨
      ∃ entry, longestAlias specifier table = some entry ∧ Longest specifier table entry := by
  rw [longestAlias_eq_foldl]
  cases hfitting : table.filter fun entry => Text.startsWith specifier entry.1 with
  | nil =>
    refine Or.inl ⟨rfl, fun entry hentry => ?_⟩
    simpa using List.filter_eq_nil_iff.1 hfitting entry hentry
  | cons first rest =>
    obtain ⟨found, hfound, hmem, hfirst, hrest⟩ := exists_foldl_longer rest first
    have hfits : ∀ entry, entry ∈ first :: rest ↔
        entry ∈ table ∧ Text.startsWith specifier entry.1 = true := by
      intro entry
      rw [← hfitting, List.mem_filter]
    obtain ⟨hin, hstarts⟩ := (hfits found).1 (List.mem_cons.2 hmem)
    refine Or.inr ⟨found, hfound, hin, hstarts, fun other hother hfit => ?_⟩
    rcases List.mem_cons.1 ((hfits other).2 ⟨hother, hfit⟩) with rfl | hmore
    · exact hfirst
    · exact hrest other hmore

theorem longestAlias_eq_some_iff (hkeys : (Record.keys table).Nodup) :
    longestAlias specifier table = some entry ↔ Longest specifier table entry := by
  rcases longestAlias_cases specifier table with ⟨hnone, hfits⟩ | ⟨found, hfound, hlongest⟩
  · refine iff_of_false (by simp [hnone]) fun h => ?_
    simpa [hfits entry h.mem] using h.fits
  · rw [hfound, Option.some_inj]
    exact ⟨fun heq => heq ▸ hlongest, hlongest.unique hkeys⟩

theorem longestAlias_congr (hkeys : (Record.keys table).Nodup) (hkeys' : (Record.keys table').Nodup)
    (h : ∀ entry, Longest specifier table' entry ↔ Longest specifier table entry) :
    longestAlias specifier table' = longestAlias specifier table := by
  ext entry
  rw [longestAlias_eq_some_iff hkeys', longestAlias_eq_some_iff hkeys, h]

/-! ## Aliases of a project -/

theorem keys_filterMap_sublist (members : List (String × Json)) :
    (Record.keys (members.filterMap fun m => m.2.string?.map fun target => (m.1, target))).Sublist
      (Record.keys members) := by
  induction members with
  | nil => exact List.Sublist.refl _
  | cons m rest ih =>
    rw [List.filterMap_cons]
    split
    · exact ih.cons _
    · rename_i pair hpair
      obtain ⟨target, -, rfl⟩ := Option.map_eq_some_iff.1 hpair
      exact ih.cons_cons _

theorem nodup_keys_aliasesOf (text : String) : (Record.keys (aliasesOf text)).Nodup := by
  unfold aliasesOf
  split
  · rename_i document hparse
    split
    · rename_i members hmembers
      have hdistinct : Json.DistinctKeys (.object members) := by
        cases Json.distinctKeys_of_parse hparse with
        | object _ hvalues => exact hvalues _ (Record.mem_of_lookup hmembers)
        | _ => cases hmembers
      cases hdistinct with
      | object hkeys _ => exact (keys_filterMap_sublist members).nodup hkeys
    · exact List.nodup_nil
  · exact List.nodup_nil

def Start.withAliases (start : Start) (table : ImportMap) : Start := { start with given := some table }

theorem nodup_keys_aliases {start : Start} (h : ∀ table ∈ start.given, (Record.keys table).Nodup) :
    (Record.keys start.aliases).Nodup := by
  unfold Start.aliases
  split
  · rename_i table hgiven
    exact h table hgiven
  split
  · unfold projectAliases aliasesAt
    split
    · exact nodup_keys_aliasesOf _
    · exact List.nodup_nil
  · exact List.nodup_nil

/-! ## The path before extensions -/

variable {root : Option String} {directory : String}

theorem Start.importedFile_eq (start : Start) (specifier file : String) :
    start.importedFile specifier file =
      probe start.files (basePath (start.root.map Path.normalize) start.aliases specifier (Path.parent file)) := by
  unfold Start.importedFile
  dsimp only
  split
  · rename_i hunused
    unfold basePath
    dsimp only
    by_cases hrelative : isRelative specifier = true
    · rw [if_pos hrelative, if_pos hrelative]
    · have hroot : start.root = none := by simpa [hrelative] using hunused
      rw [hroot, if_neg hrelative, if_neg hrelative]
      rfl
  · rfl

theorem basePath_congr (h : longestAlias specifier table' = longestAlias specifier table) :
    basePath root table' specifier directory = basePath root table specifier directory := by
  unfold basePath
  rw [h]

theorem basePath_of_longest {base target : String} (hspecifier : isRelative specifier = false)
    (h : longestAlias specifier table = some (key, target)) (htarget : isRelative target = true) :
    basePath (some base) table specifier directory =
      Path.append (Path.append base target) (Text.drop specifier key.length) := by
  unfold basePath
  rw [h]
  simp only [hspecifier, htarget, if_true, Bool.false_eq_true, if_false]

theorem basePath_of_elsewhere
    (h : ∀ entry, root.isSome = true → longestAlias specifier table = some entry → isRelative entry.2 = false) :
    basePath root table specifier directory = Path.append directory specifier := by
  unfold basePath
  dsimp only
  split
  · rfl
  split
  · rename_i base start target hlongest
    rw [if_neg]
    simpa using h _ rfl hlongest
  · rfl

/-! ## What is named -/

def firstExisting (files : Files) (base : String) : String :=
  ([base, base ++ ".tsx", base ++ ".ts", base ++ ".jsx", base ++ ".js"].find? files.isFile).getD base

theorem probe_eq_firstExisting (files : Files) (path : String) :
    probe files path = firstExisting files (Path.normalize path) := by
  unfold probe firstExisting
  dsimp only
  rw [List.find?_cons]
  split
  · rename_i hfile
    rw [hfile]
    rfl
  · rename_i hmissing
    rw [eq_false_of_ne_true hmissing]
    rfl

theorem importedFile_withAliases (start : Start) (table : ImportMap) (specifier file : String) :
    (start.withAliases table).importedFile specifier file = firstExisting start.files
      (Path.normalize (basePath (start.root.map Path.normalize) table specifier (Path.parent file))) :=
  (Start.importedFile_eq _ _ _).trans (probe_eq_firstExisting _ _)

/-- How what is named may depend on the aliases. -/
structure FollowsLongest (named : ImportMap → String) (specifier : String) (table : ImportMap) : Prop where
  unique : ∀ entry other, Longest specifier table entry → Longest specifier table other → entry = other
  order : ∀ table', table'.Perm table → named table' = named table
  congr : ∀ table', (Record.keys table').Nodup →
    (∀ entry, Longest specifier table' entry ↔ Longest specifier table entry) → named table' = named table
  /-- An alias that is not the longest may be added, removed or given another target. -/
  others : ∀ table' key, (Record.keys table').Nodup →
    (∀ entry, entry.1 ≠ key → (entry ∈ table' ↔ entry ∈ table)) →
    (∀ target, ¬Longest specifier table' (key, target) ∧ ¬Longest specifier table (key, target)) →
      named table' = named table
  elsewhere : (∀ entry, Longest specifier table entry → isRelative entry.2 = false) → named table = named []

theorem followsLongest (start : Start) (hkeys : (Record.keys table).Nodup) (specifier file : String) :
    FollowsLongest (fun table => (start.withAliases table).importedFile specifier file) specifier table := by
  have hsame : ∀ table', (Record.keys table').Nodup →
      (∀ entry, Longest specifier table' entry ↔ Longest specifier table entry) →
        (start.withAliases table').importedFile specifier file =
          (start.withAliases table).importedFile specifier file := by
    intro table' hkeys' h
    rw [importedFile_withAliases, importedFile_withAliases, basePath_congr (longestAlias_congr hkeys hkeys' h)]
  constructor
  · exact fun entry other => Longest.unique hkeys
  · intro table' hperm
    have hkeys' : (Record.keys table').Nodup := (hperm.map Prod.fst).nodup_iff.2 hkeys
    exact hsame table' hkeys' fun entry => longest_congr fun entry => hperm.mem_iff
  · exact hsame
  · intro table' key hkeys' hothers hkey
    refine hsame table' hkeys' fun entry => ⟨fun h => ?_, fun h => ?_⟩
    · exact h.of_others hothers (fun target => (hkey target).1) fun target => (hkey target).2
    · exact h.of_others (fun entry hne => (hothers entry hne).symm) (fun target => (hkey target).2)
        fun target => (hkey target).1
  · intro helsewhere
    have hnone : longestAlias specifier [] = none := rfl
    rw [importedFile_withAliases, importedFile_withAliases,
      basePath_of_elsewhere fun entry _ h => helsewhere entry ((longestAlias_eq_some_iff hkeys).1 h),
      basePath_of_elsewhere fun entry _ h => by simp [hnone] at h]

/-- Only the longest alias counts, and only with a target in the project. What it leads to is taken as it is if that
exists, else with the first extension that makes it a file. -/
theorem importedFile_of_longest (start : Start) (hspecifier : isRelative specifier = false) (file : String) :
    let named (table : ImportMap) : String := (start.withAliases table).importedFile specifier file
    (Gives start (resolveImport specifier file) (named start.aliases) ∧
        ((∀ table ∈ start.given, (Record.keys table).Nodup) → (Record.keys start.aliases).Nodup)) ∧
      ∀ table, (Record.keys table).Nodup →
        Gives (start.withAliases table) (resolveImport specifier file) (named table) ∧
        FollowsLongest named specifier table ∧
        (∀ root name target, start.root = some root → Longest specifier table (name, target) →
          isRelative target = true →
            named table = firstExisting start.files (Path.normalize
              (Path.append (Path.append (Path.normalize root) target) (Text.drop specifier name.length)))) ∧
        ((∀ entry, start.root.isSome = true → Longest specifier table entry → isRelative entry.2 = false) →
          named table = firstExisting start.files (Path.normalize (Path.append (Path.parent file) specifier))) := by
  intro named
  have haliases : named start.aliases = start.importedFile specifier file :=
    (Start.importedFile_eq _ _ _).trans (Start.importedFile_eq _ _ _).symm
  refine ⟨⟨haliases ▸ gives_resolveImport specifier file, nodup_keys_aliases⟩, fun table hkeys =>
    ⟨gives_resolveImport specifier file, followsLongest start hkeys specifier file, ?_, ?_⟩⟩
  · intro root name target hroot hlongest htarget
    dsimp only [named]
    rw [importedFile_withAliases, hroot, Option.map_some,
      basePath_of_longest hspecifier ((longestAlias_eq_some_iff hkeys).2 hlongest) htarget]
  · intro helsewhere
    dsimp only [named]
    rw [importedFile_withAliases, basePath_of_elsewhere]
    intro entry hroot hlongest
    exact helsewhere entry (by simpa using hroot) ((longestAlias_eq_some_iff hkeys).1 hlongest)

def shop : Start where
  files := .ofTexts [("/proj/lib/v/cart.ts", ""), ("/proj/lib/v2/cart.ts", "")]
  root := some "/proj"
  given := some [("~/", "./lib/"), ("std/", "https://deno.land/std/"), ("~/v/", "./lib/v2/")]

theorem importedFile_cart_of_longest :
    isRelative "~/v/cart" = false ∧ (Record.keys shop.aliases).Nodup ∧
      Longest "~/v/cart" shop.aliases ("~/v/", "./lib/v2/") ∧
      ∀ table, table.Perm shop.aliases →
        (shop.withAliases table).importedFile "~/v/cart" "/proj/sections/A.tsx" = "/proj/lib/v2/cart.ts" := by
  have hspecifier : isRelative "~/v/cart" = false := by decide
  have hkeys : (Record.keys shop.aliases).Nodup := by decide
  have hlongest : Longest "~/v/cart" shop.aliases ("~/v/", "./lib/v2/") :=
    ⟨by decide, by decide, by decide⟩
  obtain ⟨-, hfollows, hnamed, -⟩ :=
    (importedFile_of_longest shop hspecifier "/proj/sections/A.tsx").2 shop.aliases hkeys
  refine ⟨hspecifier, hkeys, hlongest, fun table hperm => (hfollows.order table hperm).trans ?_⟩
  refine (hnamed "/proj" "~/v/" "./lib/v2/" rfl hlongest (by decide)).trans ?_
  decide +kernel

end BlockCheck.Props
