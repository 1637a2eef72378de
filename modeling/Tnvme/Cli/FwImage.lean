import Mathlib.Data.List.Basic
import Mathlib.Data.Option.Basic

/-!
# The option `--fwimage`

The option names a file with a firmware image. It is read a byte at a time, and each byte is put behind what `data`
holds. The statement `fwimage.data.empty()` in front asks whether `data` is empty and clears nothing.

So the image is the file if there was none before, and no reading fails (`imageExact_iff`). Given several times, the
option puts the files one behind the other (`fwImageOptions_eq`).
-/

namespace Tnvme

structure FWImage where
  req : Bool
  data : List (BitVec 8)

/-- A file that can be opened. -/
structure ImageFile where
  bytes : List (BitVec 8)
  /-- How many bytes have been read when a call of `read` fails, if one does. -/
  failsAt : Option Nat
  inside : ∀ n ∈ failsAt, n ≤ bytes.length

/-- The loop around `read`, and whether it has got to the end of the file. -/
def readImage (failsAt : Option Nat) (pos : Nat) (bytes data : List (BitVec 8)) : Bool × List (BitVec 8) :=
  if failsAt = some pos then (false, data)
  else match bytes with
    | [] => (true, data)
    | b :: bytes => readImage failsAt (pos + 1) bytes (data ++ [b])

/-- `file` is `none` if it cannot be opened. -/
def parseFWImageCmdLine (fwimage : FWImage) (file : Option ImageFile) : Bool × FWImage :=
  match file with
  | none => (false, fwimage)
  | some file =>
    match readImage file.failsAt 0 file.bytes fwimage.data with
    | (false, data) => (false, { fwimage with data := data })
    | (true, data) => (true, { req := true, data := data })

/-- The options `--fwimage` of a command line. The program is left at the first one that cannot be parsed. -/
def fwImageOptions (fwimage : FWImage) : List (Option ImageFile) → Option FWImage
  | [] => some fwimage
  | file :: files =>
    match parseFWImageCmdLine fwimage file with
    | (false, _) => none
    | (true, fwimage) => fwImageOptions fwimage files

namespace FWImage

/-- A call that succeeds yields the bytes of the file. One that fails has not got to the end of the file: it leaves none
of its bytes. -/
def ImageExact (fwimage : FWImage) (file : Option ImageFile) : Prop :=
  ((parseFWImageCmdLine fwimage file).1 = true →
    file.map ImageFile.bytes = some (parseFWImageCmdLine fwimage file).2.data) ∧
  ((parseFWImageCmdLine fwimage file).1 = false →
    (parseFWImageCmdLine fwimage file).2.data = fwimage.data ∨ (parseFWImageCmdLine fwimage file).2.data = [])

variable {fwimage : FWImage} {failsAt : Option Nat} {bytes data : List (BitVec 8)} {pos n : Nat}

/-- Up to where it fails. -/
theorem readImage_some (hn : n ≤ bytes.length) (data : List (BitVec 8)) :
    readImage (some (pos + n)) pos bytes data = (false, data ++ bytes.take n) := by
  induction bytes generalizing pos n data with
  | nil =>
    obtain rfl : n = 0 := Nat.le_zero.1 hn
    rw [readImage, if_pos (congrArg some (Nat.add_zero pos)), List.take_nil, List.append_nil]
  | cons b bytes ih =>
    cases n with
    | zero => rw [readImage, if_pos (congrArg some (Nat.add_zero pos)), List.take_zero, List.append_nil]
    | succ n =>
      have hpos : pos + (n + 1) = pos + 1 + n := by omega
      rw [readImage, if_neg (by simp), hpos, ih (Nat.le_of_succ_le_succ hn), List.take_succ_cons, List.append_assoc,
        List.singleton_append]

theorem readImage_none (pos : Nat) (bytes data : List (BitVec 8)) :
    readImage none pos bytes data = (true, data ++ bytes) := by
  induction bytes generalizing pos data with
  | nil => rw [readImage, if_neg nofun, List.append_nil]
  | cons b bytes ih =>
    rw [readImage, if_neg nofun, ih, List.append_assoc, List.singleton_append]

theorem parse_of_fails {file : ImageFile} (hn : file.failsAt = some n) (fwimage : FWImage) :
    parseFWImageCmdLine fwimage (some file) =
      (false, { fwimage with data := fwimage.data ++ file.bytes.take n }) := by
  have hread : readImage (some (0 + n)) 0 file.bytes fwimage.data = (false, fwimage.data ++ file.bytes.take n) :=
    readImage_some (file.inside n hn) fwimage.data
  rw [Nat.zero_add] at hread
  simp only [parseFWImageCmdLine, hn, hread]

theorem parse_of_reads {file : ImageFile} (hn : file.failsAt = none) (fwimage : FWImage) :
    parseFWImageCmdLine fwimage (some file) = (true, ⟨true, fwimage.data ++ file.bytes⟩) := by
  simp only [parseFWImageCmdLine, hn, readImage_none]

/-- What has been read stays unless there is none. -/
theorem left_iff {file : ImageFile} (hn : n ≤ file.bytes.length) :
    data ++ file.bytes.take n = data ∨ data ++ file.bytes.take n = [] ↔ n = 0 := by
  constructor
  · intro h
    have hnil : file.bytes.take n = [] := by
      rcases h with h | h
      · exact List.append_right_eq_self.1 h
      · exact (List.append_eq_nil_iff.1 h).2
    have hlen := congrArg List.length hnil
    rw [List.length_take, Nat.min_eq_left hn, List.length_nil] at hlen
    exact hlen
  · rintro rfl
    exact .inl (List.append_nil data)

/-- **The image is the file exactly if, of a file that can be opened, the first call of `read` fails, or none does and
there was no image before.** -/
theorem imageExact_iff (fwimage : FWImage) (file : Option ImageFile) : ImageExact fwimage file ↔
    ∀ f ∈ file, f.failsAt = some 0 ∨ f.failsAt = none ∧ fwimage.data = [] := by
  cases file with
  | none => exact iff_of_true ⟨nofun, fun _ => .inl rfl⟩ nofun
  | some file =>
    have hsome : (∀ f ∈ some file, f.failsAt = some 0 ∨ f.failsAt = none ∧ fwimage.data = []) ↔
        file.failsAt = some 0 ∨ file.failsAt = none ∧ fwimage.data = [] := by simp
    rw [hsome, ImageExact]
    cases hn : file.failsAt with
    | none =>
      rw [parse_of_reads hn, and_iff_left nofun, or_iff_right nofun, and_iff_right rfl, forall_prop_of_true rfl,
        Option.map_some, Option.some_inj, eq_comm]
      exact List.append_left_eq_self
    | some n =>
      have hfirst : some n = some 0 ∨ some n = none ∧ fwimage.data = [] ↔ n = 0 := by simp
      rw [parse_of_fails hn, and_iff_right nofun, forall_prop_of_true rfl, hfirst]
      exact left_iff (file.inside n hn)

/-- A second image is put behind the first one. -/
theorem image_not_exact : ¬∀ fwimage file, ImageExact fwimage file := by
  intro h
  have hfirst := (h ⟨true, [1]⟩ (some ⟨[1], none, nofun⟩)).1
  rw [parse_of_reads rfl] at hfirst
  exact absurd (hfirst rfl) (by decide)

/-! ## Several options -/

/-- **The program goes on with all files, one behind the other, and only if none fails.** -/
theorem fwImageOptions_eq (fwimage : FWImage) (files : List ImageFile) (hfiles : files ≠ []) :
    fwImageOptions fwimage (files.map some) = if ∀ f ∈ files, f.failsAt = none then
      some ⟨true, fwimage.data ++ (files.map ImageFile.bytes).flatten⟩ else none := by
  induction files generalizing fwimage with
  | nil => exact absurd rfl hfiles
  | cons f files ih =>
    rw [List.map_cons, fwImageOptions]
    cases hn : f.failsAt with
    | some n =>
      rw [parse_of_fails hn, if_neg fun h => by simp [h f List.mem_cons_self] at hn]
    | none =>
      rw [parse_of_reads hn]
      dsimp only
      by_cases hlast : files = []
      · subst hlast
        rw [if_pos (by simpa using hn)]
        simp [fwImageOptions]
      · rw [ih _ hlast]
        simp [hn, List.append_assoc]

end FWImage

end Tnvme
