import Tnvme.Dump.FileSystem

/-!
# Which root directories confine the commands

The commands are confined to the base directories if the root directory has no blank and none of the paths that they act
upon is cut off (`RootFits.confined`). The buffer cuts the path that is cleaned if the root directory is long
(`clean_below`), and the directory that the files are moved to if it is half as long (`moved_below`).
-/

namespace Tnvme

open Shell

namespace FileSystem

variable {stem path : List Char} {files : Files}

/-- The buffer keeps the command, and cuts what follows it. -/
theorem snprintf_append {size : Nat} {command : List Char} (h : command.length ≤ size - 1) (text : List Char) :
    snprintf size (command ++ text) = command ++ text.take (size - 1 - command.length) := by
  rw [snprintf, List.take_append, List.take_of_length_le h]

theorem lost_cleanWork (files : Files) (dumpDir : List Char) :
    files.lost (cleanWork dumpDir) = (files.argv ((dumpDir ++ ['*']).take 248)).filter (files.kind · ≠ none) := by
  rw [cleanWork, snprintf_append (by decide)]
  exact lost_rmRf files _

theorem lost_mkdirWork (files : Files) (dumpDir : List Char) : files.lost (mkdirWork dumpDir) = [] := by
  have hsplit : "mkdir -p -m 777 ".toList ++ dumpDir = "mkdir ".toList ++ ("-p -m 777 ".toList ++ dumpDir) := rfl
  rw [mkdirWork, hsplit, snprintf_append (by decide)]
  exact lost_mkdir files _

theorem lost_rmWork (files : Files) (text : List Char) : files.lost (snprintf 256 ("sudo rm ".toList ++ text)) =
    (files.argv (text.take 247)).filter (files.kind · = some .file) := by
  rw [snprintf_append (by decide)]
  exact lost_rm files _

theorem lost_mvWork (files : Files) (text : List Char) :
    files.lost (snprintf 256 ("sudo mv ".toList ++ text)) = files.mv (files.argv (text.take 247)) := by
  rw [snprintf_append (by decide)]
  exact lost_mv files _

theorem isBlank_append {directory name : List Char} (hdirectory : ∀ c ∈ directory, isBlank c = false)
    (hname : ∀ c ∈ name, isBlank c = false) : ∀ c ∈ directory ++ name, isBlank c = false := fun c hc =>
  (List.mem_append.1 hc).elim (hdirectory c) (hname c)

/-- **A base directory that is not cut off is all that is cleaned.** -/
theorem clean_below (hblank : ∀ c ∈ stem ++ ['/'], isBlank c = false) (hlen : (stem ++ ['/']).length ≤ 247)
    (hmem : path ∈ files.lost (cleanWork (stem ++ ['/']))) : Below (stem ++ ['/']) path := by
  have hfits : (stem ++ ['/'] ++ ['*']).take 248 = stem ++ ['/'] ++ ['*'] :=
    List.take_of_length_le (by rw [List.length_append, List.length_singleton]; omega)
  rw [lost_cleanWork, hfits, argv_single (by simp) (isBlank_append hblank (not_blank (by decide)))] at hmem
  obtain ⟨name, hname, rfl⟩ := isName_of_mem_expand (List.mem_filter.1 hmem).1
  exact below_slash hname

/-- What is left of the name of the subdirectory. -/
theorem isName_take_prev : ∀ {k : Nat}, k ≠ 0 → IsName ("prev".toList.take k)
  | 0, hk => absurd rfl hk
  | 1, _ => by decide
  | 2, _ => by decide
  | 3, _ => by decide
  | k + 4, _ => by
    rw [List.take_of_length_le (Nat.le_add_left 4 k)]
    decide

theorem take_prev_chars {k : Nat} {c : Char} (hc : c ∈ "prev".toList.take k) : isBlank c = false ∧ c ≠ '*' := by
  have hmem : c ∈ "prev".toList := List.mem_of_mem_take hc
  refine ⟨not_blank (by decide : "prev".toList.any isBlank = false) c hmem, ?_⟩
  rintro rfl
  exact absurd hmem (by decide)

/-- The file that is removed first. -/
theorem prev_below (hblank : ∀ c ∈ stem ++ ['/'], isBlank c = false) (hlen : (stem ++ ['/']).length ≤ 247)
    (hmem : path ∈ files.lost (snprintf 256 ("sudo rm ".toList ++ (stem ++ ['/'] ++ "prev".toList)))) :
    Below (stem ++ ['/']) path := by
  have htake : (stem ++ ['/'] ++ "prev".toList).take 247 =
      stem ++ ['/'] ++ "prev".toList.take (247 - (stem ++ ['/']).length) := by
    rw [List.take_append, List.take_of_length_le hlen]
  rw [lost_rmWork, htake] at hmem
  generalize 247 - (stem ++ ['/']).length = k at hmem
  rw [argv_single (by simp) (isBlank_append hblank fun c hc => (take_prev_chars hc).1)] at hmem
  obtain ⟨hmem, hkind⟩ := List.mem_filter.1 hmem
  by_cases hk : k = 0
  · -- The whole name is cut off, and a path with a slash at its end names no file.
    subst hk
    rw [List.take_zero, List.append_nil, expand_of_ne (by simp), List.mem_singleton] at hmem
    subst hmem
    exact absurd (of_decide_eq_true hkind) (files.kind_slash stem)
  · have hname := isName_take_prev hk
    have hstar : '*' ∉ "prev".toList.take k := fun hc => (take_prev_chars hc).2 rfl
    rw [expand_of_ne (getLast?_append_ne _ hname.1 hstar), List.mem_singleton] at hmem
    exact hmem ▸ .name hname

/-- Where the files are moved to if the path is not cut off in front of its last slash. -/
theorem moved_below_target (hblank : ∀ c ∈ stem ++ ['/'], isBlank c = false) {target : List Char}
    (htarget : ∀ c ∈ target, isBlank c = false) (hne : target ≠ []) (hstar : target.getLast? ≠ some '*')
    (hdirectory : ∀ name, IsName name → Below (stem ++ ['/']) (join target name))
    (hfile : ∀ name, files.kind target = some .file → IsName name → (files.kind (stem ++ '/' :: name)).isSome →
      Below (stem ++ ['/']) target)
    (hmem : path ∈ files.mv (files.argv (stem ++ ['/'] ++ ['*'] ++ ' ' :: target))) : Below (stem ++ ['/']) path := by
  rw [argv_append (by simp) (isBlank_append hblank (not_blank (by decide))), argv_single hne htarget,
    expand_of_ne hstar] at hmem
  refine mv_below ?_ ?_ ?_ hmem
  · intro source hsource
    rw [List.dropLast_concat] at hsource
    exact isName_of_mem_expand hsource
  · intro target' hlast _ name hname
    obtain rfl : target = target' := by rwa [List.getLast?_concat, Option.some_inj] at hlast
    exact hdirectory name hname
  · intro target' name hlast hkind hname hexists
    obtain rfl : target = target' := by rwa [List.getLast?_concat, Option.some_inj] at hlast
    exact hfile name hkind hname hexists

/-- Where only the files are left of the command, they are moved among themselves. -/
theorem moved_below_names (hmem : path ∈ files.mv (files.expand (stem ++ ['/'] ++ ['*']))) :
    Below (stem ++ ['/']) path := by
  refine mv_below (fun source hsource => isName_of_mem_expand (List.mem_of_mem_dropLast hsource)) ?_ ?_ hmem
  · intro target hlast _ name hname
    obtain ⟨name', hname', rfl⟩ := isName_of_mem_expand (List.mem_of_getLast? hlast)
    rw [List.append_cons stem '/' name', join_of_ne (getLast?_append_ne _ hname'.1 hname'.2.1)]
    exact .child (.name hname') hname
  · intro target name hlast _ _ _
    obtain ⟨name', hname', rfl⟩ := isName_of_mem_expand (List.mem_of_getLast? hlast)
    exact below_slash hname'

/-- A name, or a name and a slash, is left behind the path of the directory. -/
theorem moved_below_prev (hblank : ∀ c ∈ stem ++ ['/'], isBlank c = false) {k : Nat} (hk : k ≠ 0)
    (hmem : path ∈ files.mv (files.argv
      (stem ++ ['/'] ++ ['*'] ++ ' ' :: (stem ++ ['/'] ++ "prev/".toList.take k)))) : Below (stem ++ ['/']) path := by
  rcases Nat.lt_or_ge k 5 with hlt | hge
  · have hsplit : "prev/".toList = "prev".toList ++ ['/'] := rfl
    have hprev : "prev/".toList.take k = "prev".toList.take k := by
      rw [hsplit, List.take_append_of_le_length (Nat.le_of_lt_succ hlt)]
    have hname := isName_take_prev hk
    rw [hprev] at hmem
    refine moved_below_target hblank (isBlank_append hblank fun c hc => (take_prev_chars hc).1) (by simp) ?_ ?_ ?_ hmem
    · exact getLast?_append_ne _ hname.1 fun hc => (take_prev_chars hc).2 rfl
    · intro name' hname'
      rw [join_of_ne (getLast?_append_ne _ hname.1 hname.2.1)]
      exact .child (.name hname) hname'
    · exact fun _ _ _ _ => .name hname
  · have hprev : stem ++ ['/'] ++ "prev/".toList.take k = stem ++ ['/'] ++ "prev".toList ++ ['/'] := by
      rw [List.take_of_length_le hge, List.append_assoc _ "prev".toList]
      rfl
    rw [hprev] at hmem
    have htarget := isBlank_append (isBlank_append hblank (not_blank (by decide : "prev".toList.any isBlank = false)))
      (not_blank (by decide : ['/'].any isBlank = false))
    refine moved_below_target hblank htarget (by simp) ?_ ?_ ?_ hmem
    · rw [List.getLast?_concat]
      decide
    · intro name hname
      rw [join_slash]
      exact .child (.name (by decide)) hname
    · exact fun name hkind _ _ => absurd hkind (files.kind_slash _)

/-- The part of the command behind the files is what the buffer has room for. -/
theorem take_moveText {directory : List Char} (hlen : directory.length ≤ 245) (target : List Char) :
    (directory ++ "* ".toList ++ target).take 247 =
      directory ++ ['*'] ++ ' ' :: target.take (245 - directory.length) := by
  have hstars : (directory ++ "* ".toList).length = directory.length + 2 := List.length_append
  have hspace : directory ++ "* ".toList = directory ++ ['*'] ++ [' '] := (List.append_assoc directory ['*'] [' ']).symm
  rw [List.take_append, List.take_of_length_le (by omega), hstars, Nat.sub_add_eq, Nat.sub_right_comm, hspace,
    List.append_assoc _ [' '], List.singleton_append]

/-- **The files are moved below their directory** if the path of that is kept up to its last slash, or not at all. -/
theorem moved_below (hblank : ∀ c ∈ stem ++ ['/'], isBlank c = false) (hne : stem ≠ [])
    (hslash : stem.getLast? ≠ some '/') (hstar : stem.getLast? ≠ some '*') (hlen : (stem ++ ['/']).length ≤ 247)
    (hcut : (stem ++ ['/']).length ≤ 123 ∨ 245 ≤ (stem ++ ['/']).length)
    (hmem : path ∈ files.lost (snprintf 256
      ("sudo mv ".toList ++ (stem ++ ['/'] ++ "* ".toList ++ (stem ++ ['/'] ++ "prev/".toList))))) :
    Below (stem ++ ['/']) path := by
  rw [lost_mvWork] at hmem
  rcases hcut with hcut | hcut
  · rw [take_moveText (by omega)] at hmem
    rcases Nat.lt_or_ge (stem ++ ['/']).length 123 with hlt | hge
    · have hprev : (stem ++ ['/'] ++ "prev/".toList).take (245 - (stem ++ ['/']).length) =
          stem ++ ['/'] ++ "prev/".toList.take (245 - (stem ++ ['/']).length - (stem ++ ['/']).length) := by
        rw [List.take_append, List.take_of_length_le (by omega)]
      rw [hprev] at hmem
      exact moved_below_prev hblank (by omega) hmem
    · -- Only the slash at the end is cut off.
      have hdumpDir : (stem ++ ['/']).length = stem.length + 1 := by rw [List.length_append, List.length_singleton]
      have hstem : (stem ++ ['/'] ++ "prev/".toList).take (245 - (stem ++ ['/']).length) = stem := by
        rw [List.append_assoc]
        exact List.take_left' (by omega)
      rw [hstem] at hmem
      refine moved_below_target hblank (fun c hc => hblank c (List.mem_append_left _ hc)) hne hstar ?_ ?_ hmem
      · intro name hname
        rw [join_of_ne hslash]
        exact below_slash hname
      · intro name hkind _ hexists
        rw [files.kind_parent stem name hne hexists] at hkind
        cases hkind
  · have htake : (stem ++ ['/'] ++ "* ".toList ++ (stem ++ ['/'] ++ "prev/".toList)).take 247 =
        stem ++ ['/'] ++ "* ".toList.take (247 - (stem ++ ['/']).length) := by
      have hstars : (stem ++ ['/'] ++ "* ".toList).length = (stem ++ ['/']).length + 2 := List.length_append
      rw [List.take_append_of_le_length (by omega), List.take_append, List.take_of_length_le hlen]
    rw [htake] at hmem
    obtain hk | hk | hk : 247 - (stem ++ ['/']).length = 0 ∨ 247 - (stem ++ ['/']).length = 1 ∨
        247 - (stem ++ ['/']).length = 2 := by omega
    · rw [hk, List.take_zero, List.append_nil, argv_single (by simp) hblank, expand_of_ne (by simp), mv_single] at hmem
      cases hmem
    · have hone : "* ".toList.take 1 = ['*'] := rfl
      rw [hk, hone, argv_single (by simp) (isBlank_append hblank (not_blank (by decide)))] at hmem
      exact moved_below_names hmem
    · have htwo : stem ++ ['/'] ++ "* ".toList.take 2 = stem ++ ['/'] ++ ['*'] ++ ' ' :: [] := by
        rw [List.append_assoc _ ['*']]
        rfl
      rw [hk, htwo, argv_append (by simp) (isBlank_append hblank (not_blank (by decide)))] at hmem
      have hnil : files.argv [] = [] := rfl
      rw [hnil, List.append_nil] at hmem
      exact moved_below_names hmem

/-! ## The commands of the three functions -/

/-- The base directories of a root directory, with one of them selected. -/
def ofRoot (root : List Char) (useDirInfo : Bool) : FileSystem :=
  ⟨useDirInfo, root ++ baseNameDirInfo, root ++ baseNamePending⟩

theorem dumpDir_length (root : List Char) (useDirInfo : Bool) :
    (ofRoot root useDirInfo).dumpDir.length = root.length + if useDirInfo then 13 else 12 := by
  cases useDirInfo <;> exact List.length_append

theorem dumpDir_ne_nil (root : List Char) (useDirInfo : Bool) : (ofRoot root useDirInfo).dumpDir ≠ [] := by
  have hlength := dumpDir_length root useDirInfo
  rintro hnil
  rw [hnil, List.length_nil] at hlength
  split at hlength <;> omega

/-- The path of a base directory is that of the root, with a name between slashes behind it. -/
theorem exists_stem {root : List Char} (hroot : ∀ c ∈ root, isBlank c = false) (useDirInfo : Bool) : ∃ stem,
    (ofRoot root useDirInfo).dumpDir = stem ++ ['/'] ∧ (∀ c ∈ stem ++ ['/'], isBlank c = false) ∧ stem ≠ [] ∧
      stem.getLast? ≠ some '/' ∧ stem.getLast? ≠ some '*' := by
  obtain ⟨name, hdir, hblank, hname, hstar⟩ : ∃ name,
      (ofRoot root useDirInfo).dumpDir = root ++ ['/'] ++ name ++ ['/'] ∧
        (∀ c ∈ name, isBlank c = false) ∧ IsName name ∧ '*' ∉ name := by
    cases useDirInfo with
    | false =>
      have hname : baseNamePending = ['/'] ++ ("GrpPending".toList ++ ['/']) := rfl
      exact ⟨_, by rw [List.append_assoc, List.append_assoc, ← hname]; rfl, not_blank (by decide), by decide, by decide⟩
    | true =>
      have hname : baseNameDirInfo = ['/'] ++ ("Informative".toList ++ ['/']) := rfl
      exact ⟨_, by rw [List.append_assoc, List.append_assoc, ← hname]; rfl, not_blank (by decide), by decide, by decide⟩
  refine ⟨root ++ ['/'] ++ name, hdir, ?_, by simp, getLast?_append_ne _ hname.1 hname.2.1,
    getLast?_append_ne _ hname.1 hstar⟩
  exact isBlank_append (isBlank_append (isBlank_append hroot (not_blank (by decide))) hblank)
    (not_blank (by decide))

theorem cleanDumpDir_ofRoot (pathExists : List Char → Option Bool) (root : List Char) (useDirInfo : Bool) :
    (ofRoot root useDirInfo).cleanDumpDir pathExists =
      ((pathExists (cleanWork (ofRoot root useDirInfo).dumpDir)).map (!·),
        [cleanWork (ofRoot root useDirInfo).dumpDir]) :=
  if_neg (dumpDir_ne_nil root useDirInfo)

variable {pathExists : List Char → Option Bool} {root work : List Char} {useDirInfo : Bool}

/-- The commands for a base directory when the root directory is set. -/
def baseWorks (root : List Char) (useDirInfo : Bool) : List (List Char) :=
  [mkdirWork (ofRoot root useDirInfo).dumpDir, cleanWork (ofRoot root useDirInfo).dumpDir]

/-- The commands that set the root directory. The second base directory is not reached if the first is not cleaned. -/
theorem setRootDumpDir_eq (hexists : pathExists root = some true) (fs : FileSystem) : ∃ res b works,
    fs.setRootDumpDir pathExists root = (res, ofRoot root b, baseWorks root false ++ works) ∧
    (works = [] ∨ works = baseWorks root true) ∧
    (pathExists (cleanWork (ofRoot root false).dumpDir) = some false → works = baseWorks root true) := by
  have hpending := cleanDumpDir_ofRoot pathExists root false
  have hinfo := cleanDumpDir_ofRoot pathExists root true
  have hbody : fs.setRootDumpDir pathExists root =
      let pending := (ofRoot root false).cleanDumpDir pathExists
      let info := (ofRoot root true).cleanDumpDir pathExists
      if pending.1 = some true then
        (decide (info.1 = some true), ofRoot root true,
          mkdirWork (ofRoot root false).dumpDir :: pending.2 ++ mkdirWork (ofRoot root true).dumpDir :: info.2)
      else (false, ofRoot root false, mkdirWork (ofRoot root false).dumpDir :: pending.2) := if_pos hexists
  rw [hbody, hpending, hinfo]
  dsimp only
  split
  · exact ⟨_, _, _, rfl, .inr rfl, fun _ => rfl⟩
  · rename_i hcleaned
    refine ⟨_, _, _, rfl, .inl rfl, fun hfalse => ?_⟩
    rw [hfalse] at hcleaned
    exact absurd rfl hcleaned

/-- All the commands, of which those for the second base directory may be missing. -/
theorem dumpWorks_eq (hexists : pathExists root = some true) (fs : FileSystem) (useDirInfo : Bool) : ∃ works,
    dumpWorks pathExists fs root useDirInfo = baseWorks root false ++ works ++
      [cleanWork (ofRoot root useDirInfo).dumpDir] ++ (ofRoot root useDirInfo).rotateDumpDir.2 ∧
    (works = [] ∨ works = baseWorks root true) ∧
    (pathExists (cleanWork (ofRoot root false).dumpDir) = some false → works = baseWorks root true) := by
  obtain ⟨res, b, works, hset, hworks, hreached⟩ := setRootDumpDir_eq hexists fs
  refine ⟨works, ?_, hworks, hreached⟩
  have hselect : (ofRoot root b).setBaseDumpDir useDirInfo = ofRoot root useDirInfo := rfl
  rw [dumpWorks, hset]
  dsimp only
  rw [hselect, cleanDumpDir_ofRoot]

theorem mem_baseWorks : work ∈ baseWorks root useDirInfo ↔
    work = mkdirWork (ofRoot root useDirInfo).dumpDir ∨ work = cleanWork (ofRoot root useDirInfo).dumpDir :=
  List.mem_pair

/-- What the commands touch is touched when a base directory is cleaned or when the selected one is rotated. -/
theorem lost_dumpWorks (hexists : pathExists root = some true) {fs : FileSystem}
    (hwork : work ∈ dumpWorks pathExists fs root useDirInfo) (hpath : path ∈ files.lost work) :
    (∃ b, path ∈ files.lost (cleanWork (ofRoot root b).dumpDir)) ∨
      path ∈ files.lost (snprintf 256 ("sudo rm ".toList ++ ((ofRoot root useDirInfo).dumpDir ++ "prev".toList))) ∨
      path ∈ files.lost (snprintf 256 ("sudo mv ".toList ++ ((ofRoot root useDirInfo).dumpDir ++ "* ".toList ++
        ((ofRoot root useDirInfo).dumpDir ++ "prev/".toList)))) := by
  have hbase {b : Bool} (h : work ∈ baseWorks root b) : path ∈ files.lost (cleanWork (ofRoot root b).dumpDir) := by
    rcases mem_baseWorks.1 h with rfl | rfl
    · rw [lost_mkdirWork] at hpath
      cases hpath
    · exact hpath
  obtain ⟨works, hworks, hset, -⟩ := dumpWorks_eq hexists fs useDirInfo
  rw [hworks, List.mem_append, List.mem_append, List.mem_append, List.mem_singleton, rotateDumpDir,
    if_neg (dumpDir_ne_nil root useDirInfo)] at hwork
  rcases hwork with ((hwork | hwork) | rfl) | hrotate
  · exact .inl ⟨false, hbase hwork⟩
  · rcases hset with rfl | rfl
    · cases hwork
    · exact .inl ⟨true, hbase hwork⟩
  · exact .inl ⟨useDirInfo, hpath⟩
  · rcases List.mem_cons.1 hrotate with rfl | hrotate
    · exact .inr (.inl hpath)
    rcases List.mem_pair.1 hrotate with rfl | rfl
    · rw [snprintf_append (by decide), lost_mkdir] at hpath
      cases hpath
    · exact .inr (.inr hpath)

theorem inBaseDir_of_below (h : Below (ofRoot root useDirInfo).dumpDir path) : InBaseDir root path := by
  cases useDirInfo with
  | false => exact .inr h
  | true => exact .inl h

/-- The text that a buffer keeps of a base directory and what follows it, if it does not get beyond the root. -/
theorem take_dumpDir {n : Nat} (hn : n ≤ root.length) (rest : List Char) :
    ((ofRoot root useDirInfo).dumpDir ++ rest).take n = root.take n := by
  cases useDirInfo <;>
    exact (congrArg (List.take n) (List.append_assoc root _ rest)).trans (List.take_append_of_le_length hn)

end FileSystem

/-- The root directory has no blank, and the buffer keeps the base directories that are cleaned and the one that files
are moved to. -/
structure RootFits (root : List Char) (useDirInfo : Bool) : Prop where
  noBlank : ∀ c ∈ root, isBlank c = false
  cleaned : (root ++ baseNameDirInfo).length ≤ 247
  moved : (FileSystem.ofRoot root useDirInfo).dumpDir.length ≤ 123 ∨
    245 ≤ (FileSystem.ofRoot root useDirInfo).dumpDir.length

/-- Nothing but blanks is kept of the root directory, and so no path. -/
structure RootBlank (root : List Char) : Prop where
  kept : 248 ≤ root.length
  blank : ∀ c ∈ root.take 248, isBlank c = true

open FileSystem in
theorem RootBlank.confined {root : List Char} (h : RootBlank root) (useDirInfo : Bool) : Confined root useDirInfo := by
  intro pathExists fs hexists work hwork files _ path hpath
  have hnothing {n : Nat} (hn : n ≤ 248) (b : Bool) (rest : List Char) :
      files.argv (((ofRoot root b).dumpDir ++ rest).take n) = [] := by
    have hblank : ∀ c ∈ root.take n, isBlank c = true := fun c hc =>
      h.blank c ((List.take_prefix_take_left hn).subset hc)
    rw [take_dumpDir (hn.trans h.kept), Files.argv, words_eq_nil hblank, List.flatMap_nil]
  rcases lost_dumpWorks hexists hwork hpath with ⟨b, hpath⟩ | hpath | hpath
  · rw [lost_cleanWork, hnothing (Nat.le_refl 248)] at hpath
    cases hpath
  · rw [lost_rmWork, hnothing (by decide)] at hpath
    cases hpath
  · rw [List.append_assoc, lost_mvWork, hnothing (by decide)] at hpath
    cases hpath

open FileSystem in
/-- **A root directory that fits confines the commands.** -/
theorem RootFits.confined {root : List Char} {useDirInfo : Bool} (h : RootFits root useDirInfo) :
    Confined root useDirInfo := by
  intro pathExists fs hexists work hwork files _ path hpath
  have hlength (b : Bool) : (ofRoot root b).dumpDir.length ≤ 247 := by
    have hinfo : (ofRoot root true).dumpDir.length ≤ 247 := h.cleaned
    rw [dumpDir_length, if_pos rfl] at hinfo
    rw [dumpDir_length]
    split <;> omega
  obtain ⟨stem, hdir, hblank, hne, hslash, hstar⟩ := exists_stem h.noBlank useDirInfo
  have hlen := hlength useDirInfo
  have hmoved := h.moved
  rcases lost_dumpWorks hexists hwork hpath with ⟨b, hpath⟩ | hpath | hpath
  · obtain ⟨stem, hdir, hblank, -⟩ := exists_stem h.noBlank b
    have hlen := hlength b
    refine @inBaseDir_of_below path root b ?_
    rw [hdir] at hpath hlen ⊢
    exact clean_below hblank hlen hpath
  · refine @inBaseDir_of_below path root useDirInfo ?_
    rw [hdir] at hpath hlen ⊢
    exact prev_below hblank hlen hpath
  · refine @inBaseDir_of_below path root useDirInfo ?_
    rw [hdir] at hpath hlen hmoved ⊢
    exact moved_below hblank hne hslash hstar hlen hmoved hpath

end Tnvme
