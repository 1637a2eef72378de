import Tnvme.Dump.Confined

/-!
# What the commands touch outside the base directories

A root directory with a blank yields a word of its own that is removed (`blank_escapes`), and of a path that is cut off
the rest is removed (`cut_escapes`), or has the files moved into it (`moved_escapes`). So the root directories that
confine the commands are those that fit, and those of which the buffer keeps nothing but blanks.
-/

namespace Tnvme

open Shell

namespace FileSystem

variable {root path word : List Char} {useDirInfo : Bool}

/-! ## Paths outside -/

theorem not_inBaseDir_of_length (h : path.length ≤ root.length + 12) : ¬InBaseDir root path := by
  rintro (hbelow | hbelow)
  · have hlen := hbelow.prefix.2
    rw [List.length_append] at hlen
    have hname : baseNameDirInfo.length = 13 := rfl
    omega
  · have hlen := hbelow.prefix.2
    rw [List.length_append] at hlen
    have hname : baseNamePending.length = 12 := rfl
    omega

theorem mem_of_inBaseDir {c : Char} (h : InBaseDir root path) (hc : c ∈ root) : c ∈ path :=
  h.elim (fun hbelow => hbelow.prefix.1.subset (List.mem_append_left _ hc)) fun hbelow =>
    hbelow.prefix.1.subset (List.mem_append_left _ hc)

/-! ## Words that are removed -/

/-- Each word that is kept of the path of a directory is removed, or a path that is as long. -/
theorem clean_escapes {dumpDir : List Char} (hword : word ∈ words isBlank ((dumpDir ++ ['*']).take 248)) :
    ∃ files : Files, files.kind root = some .directory ∧ ∃ path ∈ files.lost (cleanWork dumpDir),
      path.length = word.length ∧ (∀ c ∈ path, c ∈ word ∨ c = 'x') ∧ (word.getLast? ≠ some '*' → path = word) := by
  obtain ⟨path, hpath, hlength, hchars, hself⟩ := exists_mem_expand root word
  refine ⟨Files.of [root, path] [], kind_of_mem (by simp), path, ?_, hlength, hchars, hself⟩
  rw [lost_cleanWork, List.mem_filter, kind_of_mem (by simp)]
  exact ⟨List.mem_flatMap.2 ⟨word, hword, hpath⟩, rfl⟩

/-- No file but the root directory exists when the library is asked. -/
def onlyRoot (root path : List Char) : Option Bool := some (decide (path = root))

theorem onlyRoot_self (root : List Char) : onlyRoot root root = some true := congrArg some (decide_eq_true rfl)

/-- **A blank in the root directory lets the commands escape**, if anything is kept but blanks. -/
theorem blank_escapes (hconfined : Confined root useDirInfo) {b : Char} (hb : b ∈ root) (hblank : isBlank b = true) :
    RootBlank root := by
  obtain ⟨works, hworks, -, -⟩ := dumpWorks_eq (onlyRoot_self root) .initial useDirInfo
  have hclean : cleanWork (ofRoot root false).dumpDir ∈ dumpWorks (onlyRoot root) .initial root useDirInfo := by
    rw [hworks]
    exact List.mem_append_left _ (List.mem_append_left _ (List.mem_append_left _ (mem_baseWorks.2 (.inr rfl))))
  -- A word without blanks is not inside a directory whose path has one.
  have hall : ∀ c ∈ ((ofRoot root false).dumpDir ++ ['*']).take 248, isBlank c = true := by
    intro c hc
    by_contra hne
    obtain ⟨word, hword, hsep⟩ := exists_mem_words hc (Bool.eq_false_iff.2 hne)
    obtain ⟨files, hroot, path, hpath, -, hchars, -⟩ := @clean_escapes root word _ hword
    have hin := hconfined (onlyRoot root) .initial (onlyRoot_self root) _ hclean files hroot path hpath
    rcases hchars b (mem_of_inBaseDir hin hb) with hmem | rfl
    · rw [hsep b hmem] at hblank
      cases hblank
    · exact absurd hblank (by decide)
  have hkept : 248 ≤ root.length := by
    by_contra hlt
    have hslash : '/' ∈ ((ofRoot root false).dumpDir ++ ['*']).take 248 := by
      have hsplit : (ofRoot root false).dumpDir ++ ['*'] = root ++ ['/'] ++ "GrpPending/*".toList :=
        (List.append_assoc _ _ _).trans (List.append_assoc root ['/'] _).symm
      rw [hsplit, List.take_append, List.take_of_length_le (by rw [List.length_append, List.length_singleton]; omega)]
      simp
    exact absurd (hall '/' hslash) (by decide)
  exact ⟨hkept, fun c hc => hall c (take_dumpDir hkept ['*'] ▸ hc)⟩

/-- **A base directory that is cut off lets the commands escape.** -/
theorem cut_escapes (hconfined : Confined root useDirInfo) (hroot : ∀ c ∈ root, isBlank c = false) :
    (root ++ baseNameDirInfo).length ≤ 247 := by
  by_contra hlong
  obtain ⟨works, hworks, -, hreached⟩ := dumpWorks_eq (onlyRoot_self root) .initial useDirInfo
  have hnot : cleanWork (ofRoot root false).dumpDir ≠ root := by
    intro heq
    have hspace : ' ' ∈ cleanWork (ofRoot root false).dumpDir := by
      rw [cleanWork, snprintf_append (by decide)]
      exact List.mem_append_left _ (by decide)
    exact absurd (hroot ' ' (heq ▸ hspace)) (by decide)
  have hclean : cleanWork (ofRoot root true).dumpDir ∈ dumpWorks (onlyRoot root) .initial root useDirInfo := by
    rw [hworks, hreached (congrArg some (decide_eq_false hnot))]
    exact List.mem_append_left _ (List.mem_append_left _ (List.mem_append_right _ (mem_baseWorks.2 (.inr rfl))))
  have hlength : (ofRoot root true).dumpDir.length = root.length + 13 := dumpDir_length root true
  have hlong : 247 < (ofRoot root true).dumpDir.length := Nat.lt_of_not_le hlong
  have hblank : ∀ c ∈ (ofRoot root true).dumpDir, isBlank c = false := isBlank_append hroot (not_blank (by decide))
  have htake : ((ofRoot root true).dumpDir ++ ['*']).take 248 = (ofRoot root true).dumpDir.take 248 :=
    List.take_append_of_le_length hlong
  have hword : (ofRoot root true).dumpDir.take 248 ∈
      words isBlank (((ofRoot root true).dumpDir ++ ['*']).take 248) := by
    rw [htake, words_eq_self (fun c hc => hblank c (List.mem_of_mem_take hc)) fun hnil => by
      have := congrArg List.length hnil
      rw [List.length_take, List.length_nil] at this
      omega]
    exact List.mem_singleton.2 rfl
  obtain ⟨files, hkind, path, hpath, hlen, -, hself⟩ := @clean_escapes root _ _ hword
  have hin := hconfined (onlyRoot root) .initial (onlyRoot_self root) _ hclean files hkind path hpath
  rw [List.length_take, Nat.min_eq_left hlong] at hlen
  rcases Nat.lt_or_ge 235 root.length with hgt | hle
  · exact not_inBaseDir_of_length (by omega) hin
  · -- Only the star is cut off, and so the directory itself is removed.
    have hall : (ofRoot root true).dumpDir.take 248 = (ofRoot root true).dumpDir :=
      List.take_of_length_le (by omega)
    have hpath : path = (ofRoot root true).dumpDir := by
      rw [hall] at hself
      exact hself (getLast?_append_ne root (by decide) (by decide))
    rcases hin with hbelow | hbelow
    · have hlt := hbelow.prefix.2
      rw [hpath] at hlt
      exact Nat.lt_irrefl _ hlt
    · have hpre := hbelow.prefix.1
      rw [hpath] at hpre
      exact absurd ((List.prefix_append_right_inj root).1 hpre) (by decide)

/-! ## The directory that files are moved to -/

variable {dir target stem : List Char} {c : Char}

/-- A path that goes beyond the target contains the slash behind it. -/
theorem slash_mem_drop (hstem : stem.length ≤ target.length) (hpath : target ++ ['/'] <+: path) :
    '/' ∈ path.drop stem.length := by
  obtain ⟨rest, rfl⟩ := hpath
  rw [List.append_assoc, List.drop_append_of_le_length hstem]
  exact List.mem_append_right _ List.mem_cons_self

/-- What is further up than a file is its directory or further up than that. -/
theorem prefix_of_concat (hc : c ≠ '/') (h : path ++ ['/'] <+: dir ++ [c]) : path ++ ['/'] <+: dir :=
  (List.prefix_concat_iff.1 h).resolve_left fun heq => hc (by simpa using (List.append_inj' heq rfl).2.symm)

/-- A directory with a file, and a target with a file of the same name. -/
def twoFiles (root dir target : List Char) (c : Char) : Files :=
  Files.of [root, target] [dir ++ [c], join target [c]]

/-- Of a stem the target is the only path that matches if the next slash of the directory is behind it. -/
theorem eq_of_mem_glob (hroot : root ++ ['/'] <+: dir) (hslash : target ++ ['/'] <+: dir) (hc : c ≠ '/')
    (hstem : stem <+: target) (hjoin : join target [c] = target ++ ['/'] ++ [c])
    (hnone : '/' ∉ target.drop stem.length) (hpath : path ∈ (twoFiles root dir target c).glob stem) :
    path = target := by
  obtain ⟨hkind, hpre, hname, -⟩ := ((twoFiles root dir target c).mem_glob stem path).1 hpath
  have hdir : path ++ ['/'] <+: dir := by
    rcases kindOf_isSome hkind with (hmem | ⟨l, hl, hl'⟩) | hmem
    · rcases List.mem_pair.1 hmem with rfl | rfl
      · exact hroot
      · exact hslash
    · simp only [List.cons_append, List.nil_append, List.mem_cons, List.not_mem_nil, or_false] at hl
      rcases hl with rfl | rfl | rfl | rfl
      · exact hl'.trans ((List.prefix_append _ _).trans hroot)
      · exact hl'.trans ((List.prefix_append _ _).trans hslash)
      · exact prefix_of_concat hc hl'
      · rw [hjoin] at hl'
        exact (prefix_of_concat hc hl').trans hslash
    · -- The files themselves are behind the next slash.
      refine absurd (slash_mem_drop hstem.length_le ?_) hname
      rcases List.mem_pair.1 hmem with rfl | rfl
      · exact hslash.trans (List.prefix_append _ _)
      · exact hjoin ▸ List.prefix_append _ _
  rcases Nat.lt_trichotomy path.length target.length with hlt | heq | hgt
  · refine absurd (slash_mem_drop hpre.length_le (List.prefix_of_prefix_length_le hdir
      ((List.prefix_append _ _).trans hslash) ?_)) hnone
    rw [List.length_append, List.length_singleton]
    exact hlt
  · exact (List.prefix_of_prefix_length_le ((List.prefix_append _ _).trans hdir)
      ((List.prefix_append _ _).trans hslash) heq.le).eq_of_length heq
  · refine absurd (slash_mem_drop hstem.length_le (List.prefix_of_prefix_length_le hslash
      ((List.prefix_append _ _).trans hdir) ?_)) hname
    rw [List.length_append, List.length_singleton]
    exact hgt

theorem exists_name_slash (l : List Char) : ∃ name, '/' ∉ name ∧ name ++ ['/'] <+: l ++ ['/'] := by
  induction l with
  | nil => exact ⟨[], List.not_mem_nil, List.prefix_rfl⟩
  | cons c l ih =>
    by_cases hc : c = '/'
    · subst hc
      exact ⟨[], List.not_mem_nil, l ++ ['/'], rfl⟩
    · obtain ⟨name, hname, hpre⟩ := ih
      exact ⟨c :: name, by simp [hname, Ne.symm hc], (List.prefix_cons_inj c).2 hpre⟩

/-- The path of a base directory goes on behind that of the root. -/
theorem exists_rest (root : List Char) (useDirInfo : Bool) :
    ∃ rest, (ofRoot root useDirInfo).dumpDir = root ++ '/' :: rest ∧ '*' ∉ rest := by
  cases useDirInfo with
  | false => exact ⟨"GrpPending/".toList, rfl, by decide⟩
  | true => exact ⟨"Informative/".toList, rfl, by decide⟩

/-- A star that is kept at the end can only be one in the root. -/
theorem kept_le_of_star {k : Nat} {rest : List Char} (hrest : '*' ∉ rest)
    (hstar : ((root ++ '/' :: rest).take k).getLast? = some '*') : k ≤ root.length := by
  by_contra hgt
  rw [List.take_append, List.take_of_length_le (by omega)] at hstar
  have hne : ('/' :: rest).take (k - root.length) ≠ [] := by
    rw [Ne, List.take_eq_nil_iff]
    rintro (h | h)
    · omega
    · cases h
  refine getLast?_append_ne root hne (fun hmem => ?_) hstar
  rcases List.mem_cons.1 (List.mem_of_mem_take hmem) with h | h
  · exact absurd h (by decide)
  · exact hrest h

/-- A star in the root stands for the one path that goes on up to the next slash. -/
theorem exists_target_star {tail : List Char} (hroot : root = stem ++ ['*'] ++ tail) (hdir : root ++ ['/'] <+: dir) :
    ∃ target, target <+: dir ∧ target.length ≤ root.length ∧ ∀ c, c ≠ '/' →
      (twoFiles root dir target c).expand (stem ++ ['*']) ≠ [] ∧
        ∀ p ∈ (twoFiles root dir target c).expand (stem ++ ['*']), p = target := by
  obtain ⟨name, hname, hpre⟩ := exists_name_slash tail
  have hslashRoot : stem ++ '*' :: name ++ ['/'] <+: root ++ ['/'] := by
    rw [List.append_cons stem, List.append_assoc _ name, hroot, List.append_assoc _ tail]
    exact (List.prefix_append_right_inj _).2 hpre
  have hslash : stem ++ '*' :: name ++ ['/'] <+: dir := hslashRoot.trans hdir
  have hnone : '/' ∉ '*' :: name := by simp [hname]
  refine ⟨stem ++ '*' :: name, (List.prefix_append _ _).trans hslash, ?_, fun c hc => ?_⟩
  · have hlen := hslashRoot.length_le
    rw [List.length_append, @List.length_append _ root] at hlen
    exact Nat.le_of_add_le_add_right hlen
  have hjoin : join (stem ++ '*' :: name) [c] = stem ++ '*' :: name ++ ['/'] ++ [c] := by
    rw [join_of_ne (getLast?_append_ne stem (List.cons_ne_nil _ _) hnone), List.append_assoc _ ['/']]
    rfl
  have hkind : ((twoFiles root dir (stem ++ '*' :: name) c).kind (stem ++ '*' :: name)).isSome := by
    rw [twoFiles, kind_of_mem (by simp)]
    rfl
  have hmatches : Matches stem (stem ++ '*' :: name) := matches_append.2 ⟨hnone, fun _ => (by decide : '*' ≠ '.')⟩
  obtain ⟨hexpand, hmem⟩ := expand_of_matches hkind hmatches
  rw [hexpand]
  refine ⟨List.ne_nil_of_mem hmem, fun p hp => ?_⟩
  exact eq_of_mem_glob hdir hslash hc (List.prefix_append stem _) hjoin (by rwa [List.drop_left]) hp

/-- What is kept of the directory that the files are moved to stands for one directory, which is further up. -/
theorem exists_target {k : Nat} {rest : List Char} (hle : k ≤ root.length + 10) (hdir : dir = root ++ '/' :: rest)
    (hrest : '*' ∉ rest) : ∃ target, target <+: dir ∧ target.length ≤ root.length + 10 ∧ ∀ c, c ≠ '/' →
      (twoFiles root dir target c).expand (dir.take k) ≠ [] ∧
        ∀ p ∈ (twoFiles root dir target c).expand (dir.take k), p = target := by
  by_cases hstar : (dir.take k).getLast? = some '*'
  · have hkroot : k ≤ root.length := kept_le_of_star hrest (hdir ▸ hstar)
    obtain ⟨stem, hstem⟩ := List.getLast?_eq_some_iff.1 hstar
    have hroot : root = stem ++ ['*'] ++ root.drop k := by
      rw [← hstem, hdir, List.take_append_of_le_length hkroot, List.take_append_drop]
    have hrootDir : root ++ ['/'] <+: dir := hdir ▸ ⟨rest, by rw [List.append_assoc, List.singleton_append]⟩
    obtain ⟨target, hprefix, hlen, hexpand⟩ := exists_target_star hroot hrootDir
    rw [hstem]
    exact ⟨target, hprefix, hlen.trans (Nat.le_add_right _ _), hexpand⟩
  · refine ⟨dir.take k, List.take_prefix k dir, (List.length_take_le k dir).trans hle, fun c _ => ?_⟩
    rw [expand_of_ne hstar]
    exact ⟨List.cons_ne_nil _ _, fun p hp => List.mem_singleton.1 hp⟩

theorem join_singleton (target : List Char) :
    ∃ directory, (∀ c, join target [c] = directory ++ [c]) ∧ directory.length ≤ target.length + 1 := by
  by_cases hslash : target.getLast? = some '/'
  · exact ⟨target, fun c => if_pos hslash, Nat.le_succ _⟩
  · exact ⟨target ++ ['/'], fun c => (if_neg hslash).trans (List.append_assoc target ['/'] [c]).symm, by simp⟩

/-- One of two names is not on the way to the directory. -/
theorem exists_not_prefix (target dir : List Char) : ∃ c, c ≠ '/' ∧ IsName [c] ∧ ¬join target [c] <+: dir := by
  obtain ⟨directory, hjoin, -⟩ := join_singleton target
  by_cases hx : join target ['x'] <+: dir
  · refine ⟨'y', by decide, by decide, fun hy => ?_⟩
    rw [hjoin] at hx hy
    have hxy := List.prefix_of_prefix_length_le hx hy (by simp)
    exact absurd ((List.prefix_append_right_inj directory).1 hxy) (by decide)
  · exact ⟨'x', by decide, by decide, hx⟩

/-- In these files, the file in the directory can take the place of the one in the target. -/
theorem kind_twoFiles (hroot : root <+: dir) (htarget : target <+: dir) (hlt : target.length < dir.length)
    (hc : c ≠ '/') (hnot : ¬join target [c] <+: dir) : (twoFiles root dir target c).kind (dir ++ [c]) = some .file ∧
      (twoFiles root dir target c).kind (join target [c]) = some .file := by
  obtain ⟨directory, hjoin, hdirectory⟩ := join_singleton target
  have hrootLen := hroot.length_le
  have hlast (l : List Char) : (l ++ [c]).getLast? ≠ some '/' := by
    rw [List.getLast?_concat]
    exact fun heq => hc (Option.some.inj heq)
  have hfour {l : List Char} (hl : l ∈ [root, target] ++ [dir ++ [c], join target [c]]) :
      l = root ∨ l = target ∨ l = dir ++ [c] ∨ l = join target [c] := by simpa using hl
  have hjoinLen : (join target [c]).length ≤ dir.length + 1 := by
    rw [hjoin, List.length_append, List.length_singleton]
    omega
  have hfileLen : (dir ++ [c]).length = dir.length + 1 := by rw [List.length_append, List.length_singleton]
  constructor
  · -- None of the paths is longer than this one.
    refine kind_of_plain (fun hmem => ?_) (fun l hl hpre => ?_) (by simp) (hlast dir)
    · rcases List.mem_pair.1 hmem with heq | heq <;> rw [heq] at hfileLen <;> omega
    · have hle := hpre.length_le
      rw [List.length_append, List.length_singleton, hfileLen] at hle
      rcases hfour hl with rfl | rfl | rfl | rfl <;> omega
  · refine kind_of_plain (fun hmem => ?_) (fun l hl hpre => ?_) (by simp) (hjoin c ▸ hlast directory)
    · rcases List.mem_pair.1 hmem with heq | heq
      · exact hnot (by rw [heq]; exact hroot)
      · exact hnot (by rw [heq]; exact htarget)
    · have hto (h : join target [c] ++ ['/'] <+: dir) : False := hnot ((List.prefix_append _ _).trans h)
      rcases hfour hl with rfl | rfl | rfl | rfl
      · exact hto (hpre.trans hroot)
      · exact hto (hpre.trans htarget)
      · exact hto (prefix_of_concat hc hpre)
      · have hle := hpre.length_le
        rw [List.length_append, List.length_singleton] at hle
        omega

/-- The file in the directory that the last paths stand for is lost when the other is moved there. -/
theorem mem_mv_twoFiles {paths : List Path} (hdir : dir = stem ++ ['/']) (hname : IsName [c])
    (hfile : (twoFiles root dir target c).kind (dir ++ [c]) = some .file)
    (htaken : (twoFiles root dir target c).kind (join target [c]) = some .file) (hne : paths ≠ [])
    (hall : ∀ p ∈ paths, p = target) :
    join target [c] ∈
      (twoFiles root dir target c).mv ((twoFiles root dir target c).expand (dir ++ ['*']) ++ paths) := by
  have hmatches : Matches dir (dir ++ [c]) :=
    matches_append.2 ⟨hname.2.1, fun _ hdot => hname.2.2.1 (congrArg ([·]) hdot)⟩
  obtain ⟨hexpand, hmem⟩ := expand_of_matches (by rw [hfile]; rfl) hmatches
  refine @mem_mv_of_directory _ _ _ (dir ++ [c]) target ?_ (kind_of_mem (by simp)) ?_ ?_
  · rw [List.getLast?_append_of_ne_nil _ hne, List.getLast?_eq_some_getLast hne, hall _ (List.getLast_mem hne)]
  · rw [List.dropLast_append_of_ne_nil hne, hexpand]
    exact List.mem_append_left _ hmem
  · have hbase : baseName (dir ++ [c]) = [c] := by
      rw [hdir, List.append_assoc, List.singleton_append, baseName_append stem hname]
    rw [hbase, mem_rename, hfile, htaken]
    exact ⟨rfl, .inr ⟨.inr rfl, rfl⟩⟩

/-- **A directory for the files that is cut off lets the commands escape**, unless it is cut off as a whole. -/
theorem moved_escapes (hconfined : Confined root useDirInfo) (hroot : ∀ c ∈ root, isBlank c = false) :
    (ofRoot root useDirInfo).dumpDir.length ≤ 123 ∨ 245 ≤ (ofRoot root useDirInfo).dumpDir.length := by
  by_contra hcut
  obtain ⟨works, hworks, -, -⟩ := dumpWorks_eq (onlyRoot_self root) .initial useDirInfo
  have hlength := dumpDir_length root useDirInfo
  have hlong : root.length + 12 ≤ (ofRoot root useDirInfo).dumpDir.length ∧
      (ofRoot root useDirInfo).dumpDir.length ≤ root.length + 13 := by
    rw [hlength]
    split <;> omega
  obtain ⟨stem, hdir, hblank, -⟩ := exists_stem hroot useDirInfo
  obtain ⟨rest, hrest, hstar⟩ := exists_rest root useDirInfo
  have hmove : snprintf 256 ("sudo mv ".toList ++ ((ofRoot root useDirInfo).dumpDir ++ "* ".toList ++
      ((ofRoot root useDirInfo).dumpDir ++ "prev/".toList))) ∈ dumpWorks (onlyRoot root) .initial root useDirInfo := by
    rw [hworks, rotateDumpDir, if_neg (dumpDir_ne_nil root useDirInfo)]
    simp
  generalize (ofRoot root useDirInfo).dumpDir = dir at *
  obtain ⟨target, hprefix, hle, hexpand⟩ := exists_target (k := 245 - dir.length) (by omega) hrest hstar
  obtain ⟨c, hc, hname, hnot⟩ := exists_not_prefix target dir
  obtain ⟨hne, hall⟩ := hexpand c hc
  have hrootDir : root <+: dir := hrest ▸ List.prefix_append _ _
  obtain ⟨hfile, htaken⟩ := kind_twoFiles hrootDir hprefix (by omega) hc hnot
  have hlost : join target [c] ∈ (twoFiles root dir target c).lost (snprintf 256
      ("sudo mv ".toList ++ (dir ++ "* ".toList ++ (dir ++ "prev/".toList)))) := by
    have hkept : (dir ++ "prev/".toList).take (245 - dir.length) = dir.take (245 - dir.length) :=
      List.take_append_of_le_length (by omega)
    have htakeNe : dir.take (245 - dir.length) ≠ [] := by
      rw [Ne, List.take_eq_nil_iff]
      rintro (h | h)
      · omega
      · rw [h, List.length_nil] at hlong
        omega
    rw [lost_mvWork, take_moveText (by omega), hkept,
      argv_append (by simp) (isBlank_append (hdir ▸ hblank) (not_blank (by decide))),
      argv_single htakeNe fun d hd => (hdir ▸ hblank) d (List.mem_of_mem_take hd)]
    exact mem_mv_twoFiles hdir hname hfile htaken hne hall
  have hin := hconfined (onlyRoot root) .initial (onlyRoot_self root) _ hmove (twoFiles root dir target c)
    (kind_of_mem (by simp)) (join target [c]) hlost
  obtain ⟨directory, hjoin, hdirectory⟩ := join_singleton target
  refine not_inBaseDir_of_length ?_ hin
  rw [hjoin, List.length_append, List.length_singleton]
  omega

end FileSystem

open FileSystem

/-- **The root directories that confine the commands** are those that fit, and those of which nothing but blanks is
kept. -/
theorem confined_iff (root : List Char) (useDirInfo : Bool) :
    Confined root useDirInfo ↔ RootFits root useDirInfo ∨ RootBlank root := by
  refine ⟨fun h => ?_, fun h => h.elim RootFits.confined fun hblank => hblank.confined useDirInfo⟩
  by_cases hblank : ∃ c ∈ root, isBlank c = true
  · obtain ⟨c, hc, hblank⟩ := hblank
    exact .inr (blank_escapes h hc hblank)
  · have hroot : ∀ c ∈ root, isBlank c = false := fun c hc => Bool.eq_false_iff.2 fun hc' => hblank ⟨c, hc, hc'⟩
    exact .inl ⟨hroot, cut_escapes h hroot, moved_escapes h hroot⟩

/-- With this root directory, `/tmp/a` is removed. -/
theorem confined_not : ¬Confined "/tmp/a b".toList true := by
  intro hconfined
  have hkept := (blank_escapes hconfined (b := ' ') (by decide) rfl).kept
  exact absurd hkept (by decide)

end Tnvme
