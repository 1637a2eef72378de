import Mathlib.Algebra.Ring.Int.Defs
import Mathlib.Algebra.Ring.Nat
import Mathlib.Data.List.TakeWhile

/-!
# Numerals

`strtoul` takes a number off the front of a text, and it takes something off every text: it skips white space and a
sign, stops at the first character that is no digit (`strtoulRest`), and saturates. `numeral` is strict. It wants digits
between white space, with an optional prefix when they are hexadecimal. Of a numeral that fits `strtoul` takes the
number (`strtoul_of_numeral`), and so it does of a signed number that fits (`strtoul_of_signed`).

A number often ends at a separator. Then `strtoul` reaches it exactly if it takes all that stands before
(`strtoulRest_separator`), and it takes no more than digits, unless it was given nothing or began with white space or a
sign (`plain_iff`). The text may be a copy that is gone when `*endptr` is looked at, and then it must be a short one
(`readCopy`).
-/

namespace Numerals

/-- `isspace` -/
def isSpace (c : Char) : Bool := c.toNat == 0x20 || (0x09 ≤ c.toNat && c.toNat ≤ 0x0d)

def digitVal (c : Char) : Option Nat :=
  if 0x30 ≤ c.toNat ∧ c.toNat ≤ 0x39 then some (c.toNat - 0x30)
  else if 0x61 ≤ c.toNat ∧ c.toNat ≤ 0x7a then some (c.toNat - 0x61 + 10)
  else if 0x41 ≤ c.toNat ∧ c.toNat ≤ 0x5a then some (c.toNat - 0x41 + 10)
  else none

def isDigit (base : Nat) (c : Char) : Bool := (digitVal c).any (· < base)

/-- The number that digits stand for, the first one being the highest. -/
def ofDigits (base : Nat) (digits : List Char) : Nat :=
  digits.foldl (fun n c => n * base + (digitVal c).getD 0) 0

/-- A hexadecimal number may have a prefix, if a digit follows. -/
def dropPrefix (base : Nat) : List Char → List Char
  | '0' :: x :: c :: text =>
    if base = 16 ∧ (x = 'x' ∨ x = 'X') ∧ isDigit 16 c then c :: text else '0' :: x :: c :: text
  | text => text

/-- A sign, and what follows it. -/
def dropSign : List Char → Bool × List Char
  | '-' :: text => (true, text)
  | '+' :: text => (false, text)
  | text => (false, text)

/-- `strtoul` with an `unsigned long` of 64 bits. -/
def strtoul (base : Nat) (text : List Char) : Nat :=
  let (negative, text) := dropSign (text.dropWhile isSpace)
  let n := ofDigits base ((dropPrefix base text).takeWhile (isDigit base))
  if 2 ^ 64 ≤ n then 2 ^ 64 - 1 else if negative then (2 ^ 64 - n) % 2 ^ 64 else n

/-- What `strtoul` leaves, to which `endptr` points: the whole text if it has taken no digit. -/
def strtoulRest (base : Nat) (text : List Char) : List Char :=
  let digits := dropPrefix base (dropSign (text.dropWhile isSpace)).2
  if digits.takeWhile (isDigit base) = [] then text else digits.dropWhile (isDigit base)

/-- The number that the sign and the digits stand for, however large it is. -/
def signed (base : Nat) (text : List Char) : Int :=
  let (negative, text) := dropSign (text.dropWhile isSpace)
  let n := ofDigits base ((dropPrefix base text).takeWhile (isDigit base))
  if negative then -(n : Int) else n

/-- The number that a text denotes, if it is a numeral. -/
def numeral (base : Nat) (text : List Char) : Option Nat :=
  let text := dropPrefix base (text.dropWhile isSpace)
  let digits := text.takeWhile (isDigit base)
  if digits ≠ [] ∧ (text.dropWhile (isDigit base)).all isSpace then some (ofDigits base digits) else none

/-- Why nothing is taken from a text. -/
inductive TextFault where
  | rejected
  /-- Memory has been read after it was freed. -/
  | freed
  deriving DecidableEq, Repr

def orRejected {α : Type*} (taken : Option α) : Except TextFault α := taken.elim (.error .rejected) .ok

/-- The bytes that a `std::string` holds in itself, of which a text has one for each character. Those of a longer one
are on the heap. -/
def inlineCapacity : Nat := 15

/-- What a text is taken for, by a look at `*endptr` when the string that it points into has been destroyed. -/
def readCopy {α : Type*} (text : List Char) (taken : Option α) : Except TextFault α :=
  if inlineCapacity < text.length then .error .freed else orRejected taken

variable {base n : Nat} {text : List Char}

theorem toOption_eq_some {α : Type*} {r : Except TextFault α} {a : α} : r.toOption = some a ↔ r = .ok a := by
  cases r <;> simp [Except.toOption]

theorem orRejected_eq_ok {α : Type*} {taken : Option α} {a : α} : orRejected taken = .ok a ↔ taken = some a := by
  cases taken <;> simp [orRejected]

theorem orRejected_ne_freed {α : Type*} (taken : Option α) : orRejected taken ≠ .error .freed := by
  cases taken <;> simp [orRejected]

theorem readCopy_eq_ok {α : Type*} {taken : Option α} {a : α} :
    readCopy text taken = .ok a ↔ text.length ≤ inlineCapacity ∧ taken = some a := by
  rw [readCopy, ← orRejected_eq_ok]
  split
  · rename_i hlong
    exact iff_of_false nofun fun h => absurd h.1 (Nat.not_le.2 hlong)
  · rename_i hshort
    exact (and_iff_right (Nat.not_lt.1 hshort)).symm

theorem readCopy_eq_freed {α : Type*} {taken : Option α} :
    readCopy text taken = .error .freed ↔ inlineCapacity < text.length := by
  rw [readCopy]
  split
  · exact iff_of_true rfl ‹_›
  · exact iff_of_false (orRejected_ne_freed taken) ‹_›

theorem dropPrefix_suffix (base : Nat) (text : List Char) : dropPrefix base text <:+ text := by
  unfold dropPrefix
  split
  · split
    · exact ((List.suffix_cons _ _).trans (List.suffix_cons _ _))
    · exact List.suffix_refl _
  · exact List.suffix_refl _

theorem dropSign_suffix (text : List Char) : (dropSign text).2 <:+ text := by
  unfold dropSign
  split
  · exact List.suffix_cons _ _
  · exact List.suffix_cons _ _
  · exact List.suffix_refl _

/-- What is left is an end of the text. -/
theorem strtoulRest_suffix (base : Nat) (text : List Char) : strtoulRest base text <:+ text := by
  simp only [strtoulRest]
  split
  · exact List.suffix_refl _
  · exact (List.dropWhile_suffix _).trans ((dropPrefix_suffix _ _).trans
      ((dropSign_suffix _).trans (List.dropWhile_suffix _)))

/-- A sign is no part of a numeral. -/
theorem dropSign_of_digits (h : (dropPrefix base text).takeWhile (isDigit base) ≠ []) :
    dropSign text = (false, text) := by
  unfold dropSign
  split
  · exact absurd (by simp [dropPrefix, isDigit, digitVal]) h
  · exact absurd (by simp [dropPrefix, isDigit, digitVal]) h
  · rfl

/-- **Of a numeral that fits `strtoul` takes the number.** -/
theorem strtoul_of_numeral (h : numeral base text = some n) (hlt : n < 2 ^ 64) : strtoul base text = n := by
  unfold numeral at h
  obtain ⟨⟨hdigits, _⟩, hn⟩ := Option.ite_none_right_eq_some.1 h
  obtain rfl := Option.some.inj hn
  simp only [strtoul, dropSign_of_digits hdigits, if_neg (Nat.not_le.2 hlt), Bool.false_eq_true, if_false]

theorem strtoul_lt (base : Nat) (text : List Char) : strtoul base text < 2 ^ 64 := by
  simp only [strtoul]
  split
  · decide
  · rename_i hlt
    split
    · exact Nat.mod_lt _ (by decide)
    · exact Nat.lt_of_not_le hlt

theorem strtoul_of_signed (h0 : 0 ≤ signed base text) (hlt : (signed base text).toNat < 2 ^ 64) :
    strtoul base text = (signed base text).toNat := by
  simp only [signed, strtoul] at h0 hlt ⊢
  generalize dropSign (text.dropWhile isSpace) = sign at h0 hlt ⊢
  obtain ⟨negative, digits⟩ := sign
  cases negative with
  | false =>
    simp only [Bool.false_eq_true, if_false, Int.toNat_natCast] at hlt ⊢
    rw [if_neg (Nat.not_le.2 hlt)]
  | true =>
    -- A minus sign leaves no number but 0.
    simp only [if_true] at h0 ⊢
    have hzero : ofDigits base ((dropPrefix base digits).takeWhile (isDigit base)) = 0 := by omega
    rw [hzero]
    decide

/-! ## Numbers between separators -/

/-- `strtol` with a `long` of 64 bits. -/
def strtol (base : Nat) (text : List Char) : Int := max (-2 ^ 63) (min (signed base text) (2 ^ 63 - 1))

/-- Digits and nothing else, but for the prefix. -/
def Plain (base : Nat) (text : List Char) : Prop :=
  dropPrefix base text ≠ [] ∧ (dropPrefix base text).all (isDigit base) = true

/-- Nothing, or something that begins with white space or a sign. -/
def Lax (text : List Char) : Prop := text.head?.all fun c => isSpace c || c == '-' || c == '+'

instance (base : Nat) (text : List Char) : Decidable (Plain base text) := inferInstanceAs (Decidable (_ ∧ _))

instance (text : List Char) : Decidable (Lax text) := inferInstanceAs (Decidable (_ = true))

/-- A character that no number goes on with. -/
structure Stop (base : Nat) (sep : Char) : Prop where
  digit : isDigit base sep = false
  hexDigit : isDigit 16 sep = false
  sign : sep ≠ '-' ∧ sep ≠ '+'
  letter : sep ≠ 'x' ∧ sep ≠ 'X'

/-- One that no number begins with, either. -/
structure Separator (base : Nat) (sep : Char) : Prop extends Stop base sep where
  space : isSpace sep = false

/-- What follows the first separator, if there is one. -/
def after (sep : Char) (text : List Char) : List Char := (text.dropWhile (· ≠ sep)).drop 1

variable {sep : Char}

theorem takeWhile_separator {p : Char → Bool} (hsep : p sep = false) (text rest : List Char) :
    (text ++ sep :: rest).takeWhile p = text.takeWhile p := by
  induction text with
  | nil => exact List.takeWhile_cons_of_neg (by rw [hsep]; decide)
  | cons c text ih =>
    rw [List.cons_append, List.takeWhile_cons, List.takeWhile_cons, ih]

theorem dropWhile_separator {p : Char → Bool} (hsep : p sep = false) (text rest : List Char) :
    (text ++ sep :: rest).dropWhile p = text.dropWhile p ++ sep :: rest := by
  induction text with
  | nil => exact List.dropWhile_cons_of_neg (by rw [hsep]; decide)
  | cons c text ih =>
    rw [List.cons_append, List.dropWhile_cons, List.dropWhile_cons, ih]
    split <;> rfl

theorem takeWhile_ne_append {front : List Char} (h : sep ∉ front) (rest : List Char) :
    (front ++ sep :: rest).takeWhile (· ≠ sep) = front := by
  rw [takeWhile_separator (by simp)]
  exact List.takeWhile_eq_self_iff.2 fun c hc => decide_eq_true fun heq => h (heq ▸ hc)

theorem after_append {front : List Char} (h : sep ∉ front) (rest : List Char) :
    after sep (front ++ sep :: rest) = rest := by
  rw [after, dropWhile_separator (by simp), List.dropWhile_eq_nil_iff.2]
  · rfl
  · exact fun c hc => decide_eq_true fun heq => h (heq ▸ hc)

/-- A text is parted at its first separator in one way. -/
theorem append_separator_inj {front front' rest rest' : List Char} (h : sep ∉ front) (h' : sep ∉ front')
    (heq : front ++ sep :: rest = front' ++ sep :: rest') : front = front' ∧ rest = rest' :=
  ⟨by rw [← takeWhile_ne_append h rest, heq, takeWhile_ne_append h'],
    by rw [← after_append h rest, heq, after_append h']⟩

theorem dropSign_stop (hsep : Stop base sep) (text rest : List Char) :
    dropSign (text ++ sep :: rest) = ((dropSign text).1, (dropSign text).2 ++ sep :: rest) := by
  cases text with
  | nil =>
    obtain ⟨hminus, hplus⟩ := hsep.sign
    simp [dropSign, hminus, hplus]
  | cons c text =>
    rw [List.cons_append, dropSign.eq_def, dropSign.eq_def]
    grind

/-- A prefix needs a digit behind it, which the separator is not. -/
theorem dropPrefix_stop (hsep : Stop base sep) (text rest : List Char) :
    dropPrefix base (text ++ sep :: rest) = dropPrefix base text ++ sep :: rest := by
  obtain ⟨hx, hX⟩ := hsep.letter
  have hdigit := hsep.hexDigit
  rcases text with _ | ⟨a, _ | ⟨b, _ | ⟨c, text⟩⟩⟩
  · have hzero : sep ≠ '0' := fun h => absurd hdigit (h ▸ by decide)
    rw [List.nil_append, dropPrefix.eq_def, dropPrefix.eq_def]
    grind
  · rw [List.cons_append, List.nil_append, dropPrefix.eq_def, dropPrefix.eq_def]
    grind
  · rw [List.cons_append, List.cons_append, List.nil_append, dropPrefix.eq_def, dropPrefix.eq_def]
    grind
  · rw [List.cons_append, List.cons_append, List.cons_append, dropPrefix.eq_def, dropPrefix.eq_def]
    grind

/-- What is taken off the front does not depend on what the separator is followed by. -/
theorem front_separator (hsep : Separator base sep) (text rest : List Char) :
    (dropSign ((text ++ sep :: rest).dropWhile isSpace)).1 = (dropSign (text.dropWhile isSpace)).1 ∧
      dropPrefix base (dropSign ((text ++ sep :: rest).dropWhile isSpace)).2 =
        dropPrefix base (dropSign (text.dropWhile isSpace)).2 ++ sep :: rest := by
  rw [dropWhile_separator hsep.space, dropSign_stop hsep.toStop]
  exact ⟨rfl, dropPrefix_stop hsep.toStop _ _⟩

theorem signed_separator (hsep : Separator base sep) (text rest : List Char) :
    signed base (text ++ sep :: rest) = signed base text := by
  obtain ⟨hsign, hfront⟩ := front_separator hsep text rest
  simp only [signed, hsign, hfront, takeWhile_separator hsep.digit]

theorem strtoul_separator (hsep : Separator base sep) (text rest : List Char) :
    strtoul base (text ++ sep :: rest) = strtoul base text := by
  obtain ⟨hsign, hfront⟩ := front_separator hsep text rest
  simp only [strtoul, hsign, hfront, takeWhile_separator hsep.digit]

theorem strtol_separator (hsep : Separator base sep) (text rest : List Char) :
    strtol base (text ++ sep :: rest) = strtol base text := by
  rw [strtol, signed_separator hsep, strtol]

theorem strtoulRest_append (hsep : Separator base sep) (text rest : List Char) :
    strtoulRest base (text ++ sep :: rest) = strtoulRest base text ++ sep :: rest := by
  obtain ⟨-, hfront⟩ := front_separator hsep text rest
  simp only [strtoulRest, hfront, takeWhile_separator hsep.digit, dropWhile_separator hsep.digit]
  split <;> rfl

/-- What is taken whole has no separator in it. -/
theorem not_mem_of_whole (hsep : Separator base sep) (h : strtoulRest base text = []) : sep ∉ text := by
  intro hmem
  obtain ⟨front, rest, rfl, -⟩ := List.eq_append_cons_of_mem hmem
  rw [strtoulRest_append hsep] at h
  exact List.append_ne_nil_of_right_ne_nil _ (List.cons_ne_nil _ _) h

/-- **The separator is reached exactly if all that stands before it is taken.** -/
theorem strtoulRest_separator (hsep : Separator base sep) :
    (strtoulRest base text).head? = some sep ↔
      ∃ front rest, text = front ++ sep :: rest ∧ strtoulRest base front = [] := by
  constructor
  · intro h
    have hmem : sep ∈ text := (strtoulRest_suffix base text).subset (List.mem_of_head? h)
    obtain ⟨front, rest, rfl, hnot⟩ := List.eq_append_cons_of_mem hmem
    refine ⟨front, rest, rfl, ?_⟩
    rw [strtoulRest_append hsep] at h
    by_contra hne
    rw [List.head?_append, List.head?_eq_some_head hne, Option.some_or] at h
    exact hnot ((strtoulRest_suffix base front).subset (Option.some.inj h ▸ List.head_mem hne))
  · rintro ⟨front, rest, rfl, hfront⟩
    rw [strtoulRest_append hsep, hfront]
    rfl

/-- A value that is taken up to a separator is that of what stands before it. -/
theorem head_separator {α : Type*} {f : List Char → α} (hsep : Separator base sep)
    (hf : ∀ text rest, f (text ++ sep :: rest) = f text) (P : α → Prop) :
    (strtoulRest base text).head? = some sep ∧ P (f text) ↔
      ∃ front rest, text = front ++ sep :: rest ∧ strtoulRest base front = [] ∧ P (f front) := by
  rw [strtoulRest_separator hsep]
  constructor
  · rintro ⟨⟨front, rest, rfl, hwhole⟩, hP⟩
    rw [hf] at hP
    exact ⟨front, rest, rfl, hwhole, hP⟩
  · rintro ⟨front, rest, rfl, hwhole, hP⟩
    rw [hf]
    exact ⟨⟨front, rest, rfl, hwhole⟩, hP⟩

theorem not_lax_cons {c : Char} : ¬Lax (c :: text) ↔ isSpace c = false ∧ c ≠ '-' ∧ c ≠ '+' := by
  simp [Lax, and_assoc]

/-- A digit is neither white space nor a sign. -/
theorem not_lax_of_digit {c : Char} (h : isDigit base c = true) : ¬Lax (c :: text) := by
  have hval : digitVal c ≠ none := fun hnone => by simp [isDigit, hnone] at h
  rw [not_lax_cons]
  refine ⟨?_, ?_, ?_⟩
  · by_contra hspace
    simp only [isSpace, Bool.not_eq_false, Bool.or_eq_true, Bool.and_eq_true, beq_iff_eq, decide_eq_true_eq] at hspace
    refine hval ?_
    rw [digitVal, if_neg (by omega), if_neg (by omega), if_neg (by omega)]
  · rintro rfl
    exact hval rfl
  · rintro rfl
    exact hval rfl

theorem front_of_not_lax (h : ¬Lax text) : dropSign (text.dropWhile isSpace) = (false, text) := by
  cases text with
  | nil => exact absurd rfl h
  | cons c text =>
    obtain ⟨hspace, hminus, hplus⟩ := not_lax_cons.1 h
    rw [List.dropWhile_cons_of_neg (by rw [hspace]; decide), dropSign.eq_def]
    grind

theorem Plain.not_lax (h : Plain base text) : ¬Lax text := by
  obtain ⟨hne, hall⟩ := h
  by_cases hsame : dropPrefix base text = text
  · rw [hsame] at hne hall
    obtain ⟨c, text, rfl⟩ := List.exists_cons_of_ne_nil hne
    exact not_lax_of_digit (List.all_eq_true.1 hall c List.mem_cons_self)
  · -- There is a prefix, which begins with a digit.
    unfold dropPrefix at hsame
    split at hsame
    · exact @not_lax_of_digit 16 _ _ (by decide)
    · exact absurd rfl hsame

/-- **What `strtoul` takes whole is plain unless it is lax.** -/
theorem plain_iff : Plain base text ↔ strtoulRest base text = [] ∧ ¬Lax text := by
  constructor
  · intro h
    have hdigits := List.takeWhile_eq_self_iff.2 (List.all_eq_true.1 h.2)
    refine ⟨?_, h.not_lax⟩
    simp only [strtoulRest, front_of_not_lax h.not_lax, hdigits, if_neg h.1]
    exact List.dropWhile_eq_nil_iff.2 (List.all_eq_true.1 h.2)
  · rintro ⟨hrest, hlax⟩
    simp only [strtoulRest, front_of_not_lax hlax] at hrest
    split at hrest
    · rw [hrest] at hlax
      exact absurd rfl hlax
    · rename_i hne
      refine ⟨fun hnil => hne (by rw [hnil]; rfl), List.all_eq_true.2 (List.dropWhile_eq_nil_iff.1 hrest)⟩

theorem Plain.signed_eq (h : Plain base text) : signed base text = ofDigits base (dropPrefix base text) := by
  have hdigits := List.takeWhile_eq_self_iff.2 (List.all_eq_true.1 h.2)
  simp only [signed, front_of_not_lax h.not_lax, hdigits, Bool.false_eq_true, if_false]

/-! ## Numbers between white space -/

theorem stop_of_space {c : Char} (h : isSpace c = true) : Stop base c := by
  have hdigit (base : Nat) : isDigit base c = false := by
    by_contra hd
    have hlax : ¬Lax [c] := not_lax_of_digit (eq_true_of_ne_false hd)
    rw [(not_lax_cons.1 hlax).1] at h
    cases h
  refine ⟨hdigit base, hdigit 16, ⟨?_, ?_⟩, ?_, ?_⟩ <;> rintro rfl <;> cases h

/-- White space holds no number. -/
theorem strtoulRest_blank (h : ∀ c ∈ text, isSpace c = true) : strtoulRest base text = text := by
  simp only [strtoulRest, List.dropWhile_eq_nil_iff.2 h]
  exact if_pos rfl

/-- **A plain number is taken, with the white space in front of it.** -/
theorem strtoul_plain {blanks rest : List Char} (hblanks : ∀ c ∈ blanks, isSpace c = true) (h : Plain base text)
    (hrest : ∀ c ∈ rest.head?, Stop base c) : strtoulRest base (blanks ++ (text ++ rest)) = rest ∧
      strtoul base (blanks ++ (text ++ rest)) = min (ofDigits base (dropPrefix base text)) (2 ^ 64 - 1) := by
  have hlax : ¬Lax (text ++ rest) := by
    cases text with
    | nil => exact absurd rfl h.not_lax
    | cons c text => exact h.not_lax
  have hfront : dropSign ((blanks ++ (text ++ rest)).dropWhile isSpace) = (false, text ++ rest) := by
    have hdrop := front_of_not_lax hlax
    rwa [List.dropWhile_append_of_pos hblanks]
  have htake : (dropPrefix base text).takeWhile (isDigit base) = dropPrefix base text :=
    List.takeWhile_eq_self_iff.2 (List.all_eq_true.1 h.2)
  have hdrop : (dropPrefix base text).dropWhile (isDigit base) = [] :=
    List.dropWhile_eq_nil_iff.2 (List.all_eq_true.1 h.2)
  have hdigits : (dropPrefix base (text ++ rest)).takeWhile (isDigit base) = dropPrefix base text ∧
      (dropPrefix base (text ++ rest)).dropWhile (isDigit base) = rest := by
    cases rest with
    | nil =>
      rw [List.append_nil]
      exact ⟨htake, hdrop⟩
    | cons c rest =>
      have hstop := hrest c rfl
      rw [dropPrefix_stop hstop, takeWhile_separator hstop.digit, dropWhile_separator hstop.digit, htake, hdrop]
      exact ⟨rfl, rfl⟩
  constructor
  · simp only [strtoulRest, hfront, hdigits.1, hdigits.2, if_neg h.1]
  · simp only [strtoul, hfront, hdigits.1, Bool.false_eq_true, if_false]
    split <;> omega

theorem Plain.strtoul_eq (h : Plain base text) :
    strtoul base text = min (ofDigits base (dropPrefix base text)) (2 ^ 64 - 1) := by
  have hplain := @strtoul_plain base text [] [] (fun c hc => absurd hc List.not_mem_nil) h fun c hc => by cases hc
  rw [List.nil_append, List.append_nil] at hplain
  exact hplain.2

/-! ## Printing -/

theorem digitVal_digitChar {n : Nat} (h : n < 16) : digitVal n.digitChar = some n := by
  have hall : ∀ n : Fin 16, digitVal (n : Nat).digitChar = some (n : Nat) := by decide
  exact hall ⟨n, h⟩

theorem isDigit_digitChar (hbase : base ≤ 16) (h : n < base) : isDigit base n.digitChar = true := by
  rw [isDigit, digitVal_digitChar (h.trans_le hbase), Option.any_some, decide_eq_true h]

theorem ofDigits_concat (base : Nat) (text : List Char) (c : Char) :
    ofDigits base (text ++ [c]) = ofDigits base text * base + (digitVal c).getD 0 := by
  rw [ofDigits, List.foldl_append]
  rfl

/-- The digits of a number are digits, and stand for the number. -/
theorem toDigits_spec (h1 : 1 < base) (hbase : base ≤ 16) (n : Nat) :
    (∀ c ∈ Nat.toDigits base n, isDigit base c = true) ∧ ofDigits base (Nat.toDigits base n) = n := by
  induction n using Nat.strong_induction_on with
  | _ n ih =>
    rw [Nat.toDigits_eq_if h1]
    by_cases hlt : n < base
    · rw [if_pos hlt]
      refine ⟨fun c hc => ?_, ?_⟩
      · rw [List.mem_singleton.1 hc]
        exact isDigit_digitChar hbase hlt
      · change 0 * base + (digitVal n.digitChar).getD 0 = n
        rw [digitVal_digitChar (hlt.trans_le hbase), Nat.zero_mul, Nat.zero_add, Option.getD_some]
    · obtain ⟨hdigits, hvalue⟩ := ih (n / base) (Nat.div_lt_self (by omega) h1)
      have hmod : n % base < base := Nat.mod_lt n (by omega)
      rw [if_neg hlt]
      refine ⟨fun c hc => ?_, ?_⟩
      · rcases List.mem_append.1 hc with hc | hc
        · exact hdigits c hc
        · rw [List.mem_singleton.1 hc]
          exact isDigit_digitChar hbase hmod
      · rw [ofDigits_concat, hvalue, digitVal_digitChar (hmod.trans_le hbase), Option.getD_some]
        exact Nat.div_add_mod' n base

/-- The letter of a prefix is no digit. -/
theorem dropPrefix_of_digits (h : ∀ c ∈ text, isDigit base c = true) :
    dropPrefix base text = text := by
  unfold dropPrefix
  split
  · rename_i x c text
    split
    · rename_i hhex
      have hx := h x (List.mem_cons_of_mem _ List.mem_cons_self)
      rw [hhex.1] at hx
      rcases hhex.2.1 with rfl | rfl <;> exact absurd hx (by decide)
    · rfl
  · rfl

/-- **A number that is printed can be read.** -/
theorem plain_toDigits (h1 : 1 < base) (hbase : base ≤ 16) (n : Nat) :
    Plain base (Nat.toDigits base n) ∧ ofDigits base (dropPrefix base (Nat.toDigits base n)) = n := by
  obtain ⟨hdigits, hvalue⟩ := toDigits_spec h1 hbase n
  rw [Plain, dropPrefix_of_digits hdigits]
  exact ⟨⟨Nat.toDigits_ne_nil, List.all_eq_true.2 hdigits⟩, hvalue⟩

/-- What the two make of texts. -/
example : (numeral 16 "0x1f".toList, strtoul 16 "0x1f".toList) = (some 31, 31) ∧
    (numeral 10 "2x".toList, strtoul 10 "2x".toList) = (none, 2) ∧
    (numeral 10 "-1".toList, strtoul 10 "-1".toList) = (none, 2 ^ 64 - 1) := by decide

end Numerals
