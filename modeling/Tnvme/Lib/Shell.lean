import Mathlib.Data.List.Dedup
import Mathlib.Data.List.DropRight
import Mathlib.Data.List.Infix

/-!
# Commands of the shell

The shell splits a command into words, and a word with a star at its end stands for the names that it matches (`argv`).
`lost` are the paths that `rm` and `mv` then remove, move, or put another one in the place of. What they do to a path
depends on what it names (`Files`).

Paths are compared as they are written. Below a directory are the names in it, and what these contain (`Below`).
-/

namespace Shell

/-! ## Words -/

section Words

variable {α : Type*} {sep : α → Bool}

/-- The longest parts without a separator. -/
def words (sep : α → Bool) (l : List α) : List (List α) := (l.splitOnP sep).filter (!·.isEmpty)

theorem words_append_sep {c : α} (hc : sep c = true) (l r : List α) :
    words sep (l ++ c :: r) = words sep l ++ words sep r := by
  rw [words, List.splitOnP_append_cons l r hc, List.filter_append]
  rfl

theorem words_eq_self {l : List α} (h : ∀ c ∈ l, sep c = false) (hl : l ≠ []) : words sep l = [l] := by
  rw [words, List.splitOnP_eq_singleton h]
  simp [hl]

theorem words_sep_cons {c : α} (hc : sep c = true) (l : List α) : words sep (c :: l) = words sep l := by
  have happend := words_append_sep hc [] l
  rw [List.nil_append] at happend
  exact happend

theorem words_eq_nil {l : List α} (h : ∀ c ∈ l, sep c = true) : words sep l = [] := by
  induction l with
  | nil => rfl
  | cons c l ih =>
    obtain ⟨hc, hl⟩ := List.forall_mem_cons.1 h
    rw [words_sep_cons hc, ih hl]

theorem words_blanks_append {blanks : List α} (h : ∀ c ∈ blanks, sep c = true) (l : List α) :
    words sep (blanks ++ l) = words sep l := by
  induction blanks with
  | nil => rfl
  | cons c blanks ih =>
    obtain ⟨hc, hblanks⟩ := List.forall_mem_cons.1 h
    rw [List.cons_append, words_sep_cons hc, ih hblanks]

theorem words_append {w r : List α} (hne : w ≠ []) (hw : ∀ c ∈ w, sep c = false) (hr : ∀ c ∈ r.head?, sep c = true) :
    words sep (w ++ r) = w :: words sep r := by
  cases r with
  | nil =>
    rw [List.append_nil, words_eq_self hw hne]
    rfl
  | cons c r =>
    rw [words_append_sep (hr c rfl), words_eq_self hw hne, words_sep_cons (hr c rfl)]
    rfl

/-- There are only separators, or a first word. -/
theorem exists_word (sep : α → Bool) (l : List α) : (∀ c ∈ l, sep c = true) ∨
    ∃ blanks w r, l = blanks ++ (w ++ r) ∧ (∀ c ∈ blanks, sep c = true) ∧ w ≠ [] ∧ (∀ c ∈ w, sep c = false) ∧
      ∀ c ∈ r.head?, sep c = true := by
  induction l with
  | nil => exact .inl fun c hc => absurd hc List.not_mem_nil
  | cons c l ih =>
    cases hc : sep c with
    | true =>
      rcases ih with hall | ⟨blanks, w, r, rfl, hblanks, hw⟩
      · exact .inl (List.forall_mem_cons.2 ⟨hc, hall⟩)
      · exact .inr ⟨c :: blanks, w, r, rfl, List.forall_mem_cons.2 ⟨hc, hblanks⟩, hw⟩
    | false =>
      refine .inr ⟨[], c :: l.takeWhile (!sep ·), l.dropWhile (!sep ·), ?_, fun d hd => absurd hd List.not_mem_nil,
        List.cons_ne_nil _ _, List.forall_mem_cons.2 ⟨hc, fun d hd => ?_⟩, fun d hd => ?_⟩
      · rw [List.nil_append, List.cons_append, List.takeWhile_append_dropWhile]
      · simpa using List.mem_takeWhile_imp hd
      · have hhead := List.head?_dropWhile_not (!sep ·) l
        rw [Option.mem_def.1 hd] at hhead
        simpa using hhead

theorem words_eq_nil_iff {l : List α} : words sep l = [] ↔ ∀ c ∈ l, sep c = true := by
  refine ⟨fun hnil => ?_, words_eq_nil⟩
  rcases exists_word sep l with hall | ⟨blanks, w, r, rfl, hblanks, hne, hw, hr⟩
  · exact hall
  · rw [words_blanks_append hblanks, words_append hne hw hr] at hnil
    cases hnil

/-- A text that does not consist of separators has a word. -/
theorem exists_mem_words {l : List α} {c : α} (hmem : c ∈ l) (hc : sep c = false) :
    ∃ w ∈ words sep l, ∀ d ∈ w, sep d = false := by
  induction l with
  | nil => cases hmem
  | cons d l ih =>
    cases hd : sep d with
    | true =>
      have hmem : c ∈ l := (List.mem_cons.1 hmem).resolve_left fun heq => by simp [heq, hd] at hc
      obtain ⟨w, hw, hsep⟩ := ih hmem
      exact ⟨w, words_sep_cons hd l ▸ hw, hsep⟩
    | false =>
      cases hfind : (d :: l).find? sep with
      | none =>
        have hsep : ∀ e ∈ d :: l, sep e = false := fun e he =>
          Bool.eq_false_iff.2 (List.find?_eq_none.1 hfind e he)
        exact ⟨d :: l, by rw [words_eq_self hsep (List.cons_ne_nil d l)]; exact List.mem_singleton.2 rfl, hsep⟩
      | some e =>
        obtain ⟨he, first, rest, heq, hfirst⟩ := List.find?_eq_some_iff_append.1 hfind
        have hsep : ∀ x ∈ first, sep x = false := fun x hx => by simpa using hfirst x hx
        have hne : first ≠ [] := by
          rintro rfl
          obtain rfl := (List.cons.inj heq).1
          simp [hd] at he
        rw [heq, words_append_sep he, words_eq_self hsep hne]
        exact ⟨first, List.mem_append_left _ (List.mem_singleton.2 rfl), hsep⟩

end Words

/-! ## What paths name -/

abbrev Path := List Char

inductive Kind where
  | file
  | directory
  deriving DecidableEq, Repr

/-- A path matches a stem with a star behind it. The star does not stand for slashes, and in front of a name it does
not stand for nothing, or for what begins with a dot. -/
def Matches (stem path : Path) : Prop :=
  stem <+: path ∧ '/' ∉ path.drop stem.length ∧
    (stem.getLast?.getD '/' = '/' → (path.drop stem.length).head?.getD '.' ≠ '.')

instance (stem path : Path) : Decidable (Matches stem path) := by
  unfold Matches
  infer_instance

/-- What each path names, if anything, and the paths that match a stem with a star behind it. -/
structure Files where
  kind : Path → Option Kind
  glob : Path → List Path
  mem_glob : ∀ stem path, path ∈ glob stem ↔ (kind path).isSome ∧ Matches stem path
  kind_slash : ∀ path, kind (path ++ ['/']) ≠ some .file
  kind_parent : ∀ path name, path ≠ [] → (kind (path ++ '/' :: name)).isSome → kind path = some .directory

/-- The last name of a path. -/
def baseName (path : Path) : Path := (path.rdropWhile (· = '/')).rtakeWhile (· ≠ '/')

/-- The path of a name in a directory. -/
def join (directory name : Path) : Path :=
  if directory.getLast? = some '/' then directory ++ name else directory ++ '/' :: name

/-! ## Commands -/

/-- A line feed ends a command, so it separates words, too. -/
def isBlank (c : Char) : Bool := c = ' ' || c = '\t' || c = '\n'

namespace Files

variable (files : Files)

/-- A star in the middle of a word is a character like any other, and so is one that matches nothing. -/
def expand (word : Path) : List Path :=
  if word.getLast? = some '*' ∧ files.glob word.dropLast ≠ [] then files.glob word.dropLast else [word]

/-- A command with its arguments. -/
def argv (text : List Char) : List Path := (words isBlank text).flatMap files.expand

/-- A file takes the place of a file, and a directory that of a directory. -/
def rename (source target : Path) : List Path :=
  match files.kind source, files.kind target with
  | none, _ => []
  | some _, none => [source]
  | some kind, some kind' => if kind = kind' then [source, target] else []

/-- `mv`: the last path is the directory that the others are moved into, or the new name of the only other one. -/
def mv (paths : List Path) : List Path :=
  match paths.getLast? with
  | none => []
  | some target =>
    if files.kind target = some .directory then
      paths.dropLast.flatMap fun source => files.rename source (join target (baseName source))
    else
      match paths with
      | [source, target] => files.rename source target
      | _ => []

/-- The paths that a command removes, moves, or puts another one in the place of. An argument is taken as a path, also
if it begins with a hyphen. -/
def lost (text : List Char) : List Path :=
  match files.argv text with
  | command :: option :: paths =>
    if command = "rm".toList ∧ option = "-rf".toList then paths.filter (files.kind · ≠ none)
    else if command = "sudo".toList ∧ option = "rm".toList then paths.filter (files.kind · = some .file)
    else if command = "sudo".toList ∧ option = "mv".toList then files.mv paths
    else []
  | _ => []

end Files

/-! ## Below a directory -/

/-- A name that does not lead back. -/
def IsName (name : Path) : Prop := name ≠ [] ∧ '/' ∉ name ∧ name ≠ ['.'] ∧ name ≠ ['.', '.']

instance (name : Path) : Decidable (IsName name) := by
  unfold IsName
  infer_instance

/-- The paths of names in a directory, which ends in a slash, and of what these contain. -/
inductive Below (directory : Path) : Path → Prop
  | name {name : Path} : IsName name → Below directory (directory ++ name)
  | child {path name : Path} : Below directory path → IsName name → Below directory (path ++ '/' :: name)

variable {directory path name stem : Path} {files : Files}

/-- What is below a directory has a longer path, and that begins with the one of the directory. -/
theorem Below.prefix (h : Below directory path) : directory <+: path ∧ directory.length < path.length := by
  induction h with
  | name hname => exact ⟨List.prefix_append _ _, by simpa using List.length_pos_iff.2 hname.1⟩
  | child _ _ ih => exact ⟨ih.1.trans (List.prefix_append _ _), by rw [List.length_append]; omega⟩

theorem below_slash (h : IsName name) : Below (path ++ ['/']) (path ++ '/' :: name) := by
  have hname := @Below.name (path ++ ['/']) name h
  rwa [List.append_assoc, List.singleton_append] at hname

theorem matches_append : Matches stem (stem ++ name) ↔
    '/' ∉ name ∧ (stem.getLast?.getD '/' = '/' → name.head?.getD '.' ≠ '.') := by
  rw [Matches, List.drop_left]
  exact and_iff_right (List.prefix_append stem name)

/-- What matches a star behind a slash is a name. -/
theorem isName_of_matches (h : Matches (stem ++ ['/']) path) : ∃ name, IsName name ∧ path = stem ++ ['/'] ++ name := by
  obtain ⟨name, rfl⟩ := h.1
  obtain ⟨hslash, hhead⟩ := matches_append.1 h
  have hdot : name.head?.getD '.' ≠ '.' := hhead (by simp)
  refine ⟨name, ⟨?_, hslash, ?_, ?_⟩, rfl⟩ <;> rintro rfl <;> exact hdot rfl

theorem join_slash (directory name : Path) : join (directory ++ ['/']) name = directory ++ '/' :: name := by
  rw [join, if_pos List.getLast?_concat, List.append_assoc, List.singleton_append]

theorem join_of_ne (h : directory.getLast? ≠ some '/') (name : Path) : join directory name = directory ++ '/' :: name :=
  if_neg h

theorem getLast?_append_ne {c : Char} (directory : Path) (hne : name ≠ []) (hc : c ∉ name) :
    (directory ++ name).getLast? ≠ some c := by
  rw [List.getLast?_append_of_ne_nil _ hne]
  exact fun heq => hc (List.mem_of_getLast? heq)

/-- The last name of the path of a name. -/
theorem baseName_append (directory : Path) (h : IsName name) : baseName (directory ++ '/' :: name) = name := by
  have hstrip : (directory ++ '/' :: name).rdropWhile (· = '/') = directory ++ '/' :: name := by
    refine List.rdropWhile_eq_self_iff.2 fun hne hlast => ?_
    have hsome := List.getLast?_eq_some_getLast hne
    rw [of_decide_eq_true hlast, ← List.singleton_append, ← List.append_assoc] at hsome
    exact getLast?_append_ne _ h.1 h.2.1 hsome
  have htake : (name.reverse ++ '/' :: directory.reverse).takeWhile (· ≠ '/') = name.reverse := by
    have hname : ∀ c ∈ name.reverse, decide (c ≠ '/') = true := by
      intro c hc
      have hne : c ≠ '/' := fun heq => h.2.1 (heq ▸ List.mem_reverse.1 hc)
      exact decide_eq_true hne
    rw [List.takeWhile_append_of_pos hname, List.takeWhile_cons_of_neg (by simp), List.append_nil]
  rw [baseName, hstrip, List.rtakeWhile, List.reverse_append, List.reverse_cons, List.append_assoc,
    List.singleton_append, htake, List.reverse_reverse]

/-! ## What commands do -/

section Commands

theorem expand_of_ne (h : path.getLast? ≠ some '*') : files.expand path = [path] := if_neg fun hstar => h hstar.1

theorem expand_star (h : files.glob stem ≠ []) : files.expand (stem ++ ['*']) = files.glob stem := by
  rw [Files.expand, List.dropLast_concat]
  exact if_pos ⟨List.getLast?_concat, h⟩

/-- What matches is what a star stands for. -/
theorem expand_of_matches (hkind : (files.kind path).isSome) (h : Matches stem path) :
    files.expand (stem ++ ['*']) = files.glob stem ∧ path ∈ files.glob stem := by
  have hmem : path ∈ files.glob stem := (files.mem_glob stem path).2 ⟨hkind, h⟩
  exact ⟨expand_star (List.ne_nil_of_mem hmem), hmem⟩

theorem mem_expand_star (h : path ∈ files.expand (stem ++ ['*'])) :
    ((files.kind path).isSome ∧ Matches stem path) ∨ path = stem ++ ['*'] := by
  rw [Files.expand, List.dropLast_concat] at h
  split at h
  · exact .inl ((files.mem_glob stem path).1 h)
  · exact .inr (List.mem_singleton.1 h)

/-- What a star behind a slash stands for. -/
theorem isName_of_mem_expand (h : path ∈ files.expand (stem ++ ['/'] ++ ['*'])) :
    ∃ name, IsName name ∧ path = stem ++ '/' :: name := by
  rcases mem_expand_star h with ⟨-, hmatch⟩ | rfl
  · obtain ⟨name, hname, rfl⟩ := isName_of_matches hmatch
    exact ⟨name, hname, (List.append_cons stem '/' name).symm⟩
  · exact ⟨['*'], by decide, (List.append_cons stem '/' ['*']).symm⟩

/-- A word of a command that does not stand for others. -/
def IsWord (word : Path) : Prop := word ≠ [] ∧ word.any isBlank = false ∧ word.getLast? ≠ some '*'

instance (word : Path) : Decidable (IsWord word) := by
  unfold IsWord
  infer_instance

theorem not_blank {text : List Char} (h : text.any isBlank = false) : ∀ c ∈ text, isBlank c = false := fun c hc =>
  Bool.eq_false_iff.2 (List.any_eq_false.1 h c hc)

theorem argv_single {word : Path} (hne : word ≠ []) (hword : ∀ c ∈ word, isBlank c = false) :
    files.argv word = files.expand word := by
  rw [Files.argv, words_eq_self hword hne, List.flatMap_singleton]

theorem argv_append {word : Path} (hne : word ≠ []) (hword : ∀ c ∈ word, isBlank c = false) (text : List Char) :
    files.argv (word ++ ' ' :: text) = files.expand word ++ files.argv text := by
  rw [Files.argv, words_append_sep (by decide), words_eq_self hword hne, List.singleton_append, List.flatMap_cons]
  rfl

theorem argv_word {word : Path} (hword : IsWord word) (text : List Char) :
    files.argv (word ++ ' ' :: text) = word :: files.argv text := by
  rw [argv_append hword.1 (not_blank hword.2.1), expand_of_ne hword.2.2, List.singleton_append]

theorem lost_rmRf (files : Files) (text : List Char) :
    files.lost ("rm -rf ".toList ++ text) = (files.argv text).filter (files.kind · ≠ none) := by
  have hsplit : "rm -rf ".toList ++ text = "rm".toList ++ ' ' :: ("-rf".toList ++ ' ' :: text) := rfl
  rw [Files.lost, hsplit, argv_word (by decide), argv_word (by decide)]
  exact if_pos ⟨rfl, rfl⟩

theorem lost_rm (files : Files) (text : List Char) :
    files.lost ("sudo rm ".toList ++ text) = (files.argv text).filter (files.kind · = some .file) := by
  have hsplit : "sudo rm ".toList ++ text = "sudo".toList ++ ' ' :: ("rm".toList ++ ' ' :: text) := rfl
  rw [Files.lost, hsplit, argv_word (by decide), argv_word (by decide)]
  rfl

theorem lost_mv (files : Files) (text : List Char) :
    files.lost ("sudo mv ".toList ++ text) = files.mv (files.argv text) := by
  have hsplit : "sudo mv ".toList ++ text = "sudo".toList ++ ' ' :: ("mv".toList ++ ' ' :: text) := rfl
  rw [Files.lost, hsplit, argv_word (by decide), argv_word (by decide)]
  rfl

theorem lost_mkdir (files : Files) (text : List Char) : files.lost ("mkdir ".toList ++ text) = [] := by
  have hsplit : "mkdir ".toList ++ text = "mkdir".toList ++ ' ' :: text := rfl
  rw [Files.lost, hsplit, argv_word (by decide)]
  cases files.argv text <;> rfl

theorem mem_rename {source target : Path} : path ∈ files.rename source target ↔ (files.kind source).isSome ∧
    (path = source ∧ files.kind target = none ∨
      (path = source ∨ path = target) ∧ files.kind target = files.kind source) := by
  rw [Files.rename]
  cases files.kind source with
  | none => simp
  | some kind =>
    cases files.kind target with
    | none => simp
    | some kind' => by_cases heq : kind = kind' <;> simp [heq, eq_comm]

/-- **What is moved from a directory stays below it** if the target does, or if no source can be moved there. -/
theorem mv_below {paths : List Path}
    (hsources : ∀ source ∈ paths.dropLast, ∃ name, IsName name ∧ source = stem ++ '/' :: name)
    (hdirectory : ∀ target, paths.getLast? = some target → files.kind target = some .directory →
      ∀ name, IsName name → Below (stem ++ ['/']) (join target name))
    (hfile : ∀ target name, paths.getLast? = some target → files.kind target = some .file → IsName name →
      (files.kind (stem ++ '/' :: name)).isSome → Below (stem ++ ['/']) target)
    (hmem : path ∈ files.mv paths) : Below (stem ++ ['/']) path := by
  unfold Files.mv at hmem
  cases htarget : paths.getLast? with
  | none =>
    rw [htarget] at hmem
    cases hmem
  | some target =>
    rw [htarget] at hmem
    dsimp only at hmem
    split at hmem
    · rename_i hkind
      obtain ⟨source, hsource, hmem⟩ := List.mem_flatMap.1 hmem
      obtain ⟨name, h, rfl⟩ := hsources source hsource
      rw [baseName_append stem h] at hmem
      obtain ⟨-, ⟨rfl, -⟩ | ⟨rfl | rfl, -⟩⟩ := mem_rename.1 hmem
      · exact below_slash h
      · exact below_slash h
      · exact hdirectory target htarget hkind name h
    · rename_i hkind
      split at hmem
      · rename_i source target'
        obtain rfl : target' = target := Option.some.inj htarget
        obtain ⟨name, h, rfl⟩ := hsources source (by simp)
        obtain ⟨hexists, ⟨rfl, -⟩ | ⟨rfl | rfl, hsame⟩⟩ := mem_rename.1 hmem
        · exact below_slash h
        · exact below_slash h
        · cases hkind' : files.kind path with
          | none => simp [← hsame, hkind'] at hexists
          | some kind =>
            cases kind with
            | file => exact hfile path name htarget hkind' h hexists
            | directory => exact absurd hkind' hkind
      · cases hmem

theorem mv_single (files : Files) (path : Path) : files.mv [path] = [] := by
  unfold Files.mv
  dsimp only [List.getLast?_singleton, List.dropLast_singleton, List.flatMap_nil]
  exact ite_self _

/-- What is moved into a directory, and what it takes the place of there. -/
theorem mem_mv_of_directory {paths : List Path} {source target : Path} (hlast : paths.getLast? = some target)
    (hkind : files.kind target = some .directory) (hsource : source ∈ paths.dropLast)
    (hmem : path ∈ files.rename source (join target (baseName source))) : path ∈ files.mv paths := by
  unfold Files.mv
  rw [hlast]
  dsimp only
  rw [if_pos hkind]
  exact List.mem_flatMap.2 ⟨source, hsource, hmem⟩

end Commands

/-! ## Files with given names -/

section Of

/-- What a path names if there are directories and files, and the directories that these are in. -/
def kindOf (directories plain : List Path) (path : Path) : Option Kind :=
  if path ∈ directories ∨ ∃ l ∈ directories ++ plain, path ++ ['/'] <+: l then some .directory
  else if path ∈ plain ∧ path.getLast? ≠ some '/' then some .file
  else none

variable {directories plain : List Path}

theorem kindOf_isSome (h : (kindOf directories plain path).isSome) :
    (path ∈ directories ∨ ∃ l ∈ directories ++ plain, path ++ ['/'] <+: l) ∨ path ∈ plain := by
  rw [kindOf] at h
  split at h
  · rename_i hdirectory
    exact .inl hdirectory
  · split at h
    · rename_i hplain
      exact .inr hplain.1
    · cases h

theorem prefix_of_kindOf (h : (kindOf directories plain path).isSome) : ∃ l ∈ directories ++ plain, path <+: l := by
  rcases kindOf_isSome h with (hmem | ⟨l, hl, hpre⟩) | hmem
  · exact ⟨path, List.mem_append_left _ hmem, List.prefix_rfl⟩
  · exact ⟨l, hl, (List.prefix_append _ _).trans hpre⟩
  · exact ⟨path, List.mem_append_right _ hmem, List.prefix_rfl⟩

/-- There are these directories and files, and no others than those that they are in. -/
def Files.of (directories plain : List Path) : Files where
  kind := kindOf directories plain
  glob stem := (((directories ++ plain).flatMap List.inits).filter fun path =>
    (kindOf directories plain path).isSome && Matches stem path).dedup
  mem_glob stem path := by
    rw [List.mem_dedup, List.mem_filter, List.mem_flatMap, Bool.and_eq_true, decide_eq_true_eq]
    refine and_iff_right_of_imp fun h => ?_
    obtain ⟨l, hl, hpre⟩ := prefix_of_kindOf h.1
    exact ⟨l, hl, (List.mem_inits path l).2 hpre⟩
  kind_slash path := by
    rw [kindOf]
    split
    · exact fun h => by cases h
    · rw [if_neg fun h => h.2 List.getLast?_concat]
      exact fun h => by cases h
  kind_parent path name _ h := by
    obtain ⟨l, hl, hpre⟩ := prefix_of_kindOf h
    refine if_pos (.inr ⟨l, hl, List.IsPrefix.trans ⟨name, ?_⟩ hpre⟩)
    rw [List.append_assoc, List.singleton_append]

theorem kind_of_mem (h : path ∈ directories) : (Files.of directories plain).kind path = some .directory :=
  if_pos (.inl h)

theorem kind_of_plain (hdirectory : path ∉ directories) (hnone : ∀ l ∈ directories ++ plain, ¬path ++ ['/'] <+: l)
    (hmem : path ∈ plain) (hslash : path.getLast? ≠ some '/') :
    (Files.of directories plain).kind path = some .file := by
  change kindOf directories plain path = _
  rw [kindOf, if_neg, if_pos ⟨hmem, hslash⟩]
  rintro (h | ⟨l, hl, h⟩)
  · exact hdirectory h
  · exact hnone l hl h

/-- A word stands for a path that is as long, in the files with this one and another. -/
theorem exists_mem_expand (root word : Path) :
    ∃ path, path ∈ (Files.of [root, path] []).expand word ∧ path.length = word.length ∧
      (∀ c ∈ path, c ∈ word ∨ c = 'x') ∧ (word.getLast? ≠ some '*' → path = word) := by
  by_cases hstar : word.getLast? = some '*'
  · obtain ⟨stem, rfl⟩ : ∃ stem, word = stem ++ ['*'] := List.getLast?_eq_some_iff.1 hstar
    have hkind : ((Files.of [root, stem ++ ['x']] []).kind (stem ++ ['x'])).isSome := by
      rw [kind_of_mem (by simp)]
      rfl
    obtain ⟨hexpand, hglob⟩ := expand_of_matches hkind (matches_append.2 ⟨by decide, fun _ => by decide⟩)
    refine ⟨stem ++ ['x'], hexpand ▸ hglob, by simp, fun c hc => ?_, fun hne => absurd hstar hne⟩
    · rw [List.mem_append, List.mem_singleton] at hc
      exact hc.imp_left (List.mem_append_left _)
  · exact ⟨word, by rw [expand_of_ne hstar]; exact List.mem_singleton.2 rfl, rfl, fun c hc => .inl hc, fun _ => rfl⟩

end Of

end Shell
