import Tnvme.Lib.Shell
import Tnvme.Xml.Golden

/-!
# The text of a payload

A `prp` and a `mask` hold 4096 bytes as hexadecimal numbers between white space. The loop that `payloadBytes` models
takes a number only if something follows it in the text, and takes whatever `strtoul` takes for a number. It goes
through a string that has been destroyed, so that no text of more than 15 characters can be read.

The bytes of a shorter text are read right exactly if some of its words are no bytes, or white space follows the last
one (`payloadExact_iff`).
-/

namespace Tnvme

open Numerals

/-- The words of a text. -/
def tokens (text : List Char) : List (List Char) := Shell.words isSpace text

/-- A hexadecimal number that fits into a byte. -/
def IsHexByte (token : List Char) : Prop := Plain 16 token ∧ ofDigits 16 (dropPrefix 16 token) ≤ 0xff

instance (token : List Char) : Decidable (IsHexByte token) := inferInstanceAs (Decidable (_ ∧ _))

def hexByte (token : List Char) : BitVec 8 := BitVec.ofNat 8 (ofDigits 16 (dropPrefix 16 token))

/-- White space stands at the end. -/
def EndsBlank (text : List Char) : Prop := ∃ c ∈ text.getLast?, isSpace c = true

/-- A `prp` or a `mask` with a text, and what the reader passes over before and after it. -/
structure PayloadElement where
  name : String
  text : List Char
  before : List Node
  after : List Node
  passed : ∀ n ∈ before ++ after, n.nodeType = .comment ∨ n.nodeType = .significantWhitespace

namespace PayloadElement

def textNode (e : PayloadElement) : Node := ⟨.text, "#text", 3, some (String.ofList e.text), [], fun _ _ => rfl⟩

def endNode (e : PayloadElement) : Node := ⟨.endElement, e.name, 2, none, [], fun _ _ => rfl⟩

/-- White space alone is no text to the reader. -/
def texts (e : PayloadElement) : List Node := if e.text.all isSpace then [] else [e.textNode]

/-- The nodes from the start of the element on, with what follows it. -/
def nodes (e : PayloadElement) (xmlFile : List Node) : List Node :=
  e.before ++ (e.texts ++ (e.after ++ e.endNode :: xmlFile))

/-- The bytes that are collected. -/
def bytes (e : PayloadElement) : Except TextFault (List (BitVec 8)) :=
  if e.text.all isSpace then .ok [] else payloadBytes e.text

end PayloadElement

/-- The bytes are those of the words, and the element is accepted exactly if it holds 4096 of them and nothing else. No
freed memory is read. -/
structure PayloadExact (wellFormed : Bool) (e : PayloadElement) (xmlFile : List Node) : Prop where
  defined : payloadLoop wellFormed e.name (e.nodes xmlFile) [] ≠ .error .freed
  bytes : (∀ token ∈ tokens e.text, IsHexByte token) → e.bytes = .ok ((tokens e.text).map hexByte)
  accepted : (∃ result, payloadLoop wellFormed e.name (e.nodes xmlFile) [] = .ok result) ↔
    (∀ token ∈ tokens e.text, IsHexByte token) ∧ (tokens e.text).length = idealDataSize

variable {text : List Char}

/-! ## Words -/

theorem moreBytes_eq (text : List Char) : moreBytes text =
    if strtoulRest 16 text ≠ [] ∧ strtoulRest 16 text ≠ text then
      BitVec.ofNat 8 (strtoul 16 text) :: moreBytes (strtoulRest 16 text)
    else [] := by
  rw [moreBytes]
  rfl

theorem liveBytes_eq (h : strtoulRest 16 text ≠ text) : liveBytes text = moreBytes text := by
  rw [moreBytes_eq, liveBytes]
  by_cases hend : strtoulRest 16 text = []
  · rw [if_neg (not_not.2 hend), if_neg fun h => h.1 hend]
  · rw [if_pos hend, if_pos ⟨hend, h⟩]

theorem endsBlank_append {front rest : List Char} (h : rest ≠ []) : EndsBlank (front ++ rest) ↔ EndsBlank rest := by
  rw [EndsBlank, List.getLast?_append_of_ne_nil _ h, EndsBlank]

theorem tokens_word {blanks token rest : List Char} (hblanks : ∀ c ∈ blanks, isSpace c = true) (hne : token ≠ [])
    (hsolid : ∀ c ∈ token, isSpace c = false) (hrest : ∀ c ∈ rest.head?, isSpace c = true) :
    tokens (blanks ++ (token ++ rest)) = token :: tokens rest := by
  rw [tokens, Shell.words_blanks_append hblanks, Shell.words_append hne hsolid hrest, tokens]

/-- White space does not stand at the end of a word. -/
theorem not_endsBlank_word {token : List Char} (hne : token ≠ []) (hsolid : ∀ c ∈ token, isSpace c = false)
    (blanks : List Char) : ¬EndsBlank (blanks ++ token) := by
  rw [endsBlank_append hne]
  rintro ⟨c, hc, hspace⟩
  rw [hsolid c (List.mem_of_getLast? hc)] at hspace
  cases hspace

/-- A text that does not end with white space has a last word. -/
theorem tokens_ne_nil_of_end (hne : text ≠ []) (hend : ¬EndsBlank text) : tokens text ≠ [] := by
  intro hnil
  have hblank := Shell.words_eq_nil_iff.1 hnil
  exact hend ⟨_, List.getLast?_eq_some_getLast hne, hblank _ (List.getLast_mem hne)⟩

/-- The first word is a number, and what follows it is left. -/
theorem strtoul_token {blanks token rest : List Char} (hblanks : ∀ c ∈ blanks, isSpace c = true)
    (htoken : IsHexByte token) (hrest : ∀ c ∈ rest.head?, isSpace c = true) :
    strtoulRest 16 (blanks ++ (token ++ rest)) = rest ∧
      BitVec.ofNat 8 (strtoul 16 (blanks ++ (token ++ rest))) = hexByte token := by
  obtain ⟨hleft, hvalue⟩ := strtoul_plain hblanks htoken.1 fun c hc => stop_of_space (hrest c hc)
  have hsmall := htoken.2
  refine ⟨hleft, ?_⟩
  rw [hvalue, hexByte, Nat.min_eq_left (by omega)]

/-- **The bytes are those of the words**, except for a last word that nothing follows. -/
theorem moreBytes_tokens (h : ∀ token ∈ tokens text, IsHexByte token) :
    (EndsBlank text → moreBytes text = (tokens text).map hexByte) ∧
      (¬EndsBlank text → moreBytes text = ((tokens text).map hexByte).dropLast) := by
  induction hlen : text.length using Nat.strong_induction_on generalizing text with
  | _ n ih =>
    rcases Shell.exists_word isSpace text with hblank | ⟨blanks, token, rest, rfl, hblanks, hne, hsolid, hrest⟩
    · have hnone : tokens text = [] := Shell.words_eq_nil hblank
      rw [moreBytes_eq, if_neg fun h => h.2 (strtoulRest_blank hblank), hnone]
      exact ⟨fun _ => rfl, fun _ => rfl⟩
    · rw [tokens_word hblanks hne hsolid hrest] at h ⊢
      obtain ⟨htoken, hothers⟩ := List.forall_mem_cons.1 h
      obtain ⟨hleft, hvalue⟩ := strtoul_token hblanks htoken hrest
      have hpos : 0 < token.length := List.length_pos_iff.2 hne
      have hlen' : blanks.length + (token.length + rest.length) = n := by simpa using hlen
      rw [moreBytes_eq, hleft, hvalue, List.map_cons]
      cases rest with
      | nil =>
        -- The last word reaches the end of the text.
        have hend : ¬EndsBlank (blanks ++ (token ++ [])) := by
          rw [List.append_nil]
          exact not_endsBlank_word hne hsolid blanks
        exact ⟨fun h => absurd h hend, fun _ => if_neg fun h => h.1 rfl⟩
      | cons c rest =>
        have hshort : (c :: rest).length < n := by omega
        have hne' : c :: rest ≠ blanks ++ (token ++ c :: rest) := fun heq => by
          have := congrArg List.length heq
          simp only [List.length_append] at this hlen'
          omega
        obtain ⟨hyes, hno⟩ := ih _ hshort hothers rfl
        rw [if_pos ⟨List.cons_ne_nil _ _, hne'⟩, ← List.append_assoc, endsBlank_append (List.cons_ne_nil _ _)]
        refine ⟨fun hend => congrArg (hexByte token :: ·) (hyes hend), fun hend => ?_⟩
        have hmore : (tokens (c :: rest)).map hexByte ≠ [] := fun hnil =>
          tokens_ne_nil_of_end (List.cons_ne_nil c rest) hend (List.map_eq_nil_iff.1 hnil)
        rw [List.dropLast_cons_of_ne_nil hmore, hno hend]

theorem strtoulRest_ne (htokens : tokens text ≠ []) (h : ∀ token ∈ tokens text, IsHexByte token) :
    strtoulRest 16 text ≠ text := by
  rcases Shell.exists_word isSpace text with hblank | ⟨blanks, token, rest, rfl, hblanks, hne, hsolid, hrest⟩
  · exact absurd (Shell.words_eq_nil hblank) htokens
  · have htoken : IsHexByte token := by
      refine h token ?_
      rw [tokens_word hblanks hne hsolid hrest]
      exact List.mem_cons_self
    intro heq
    have hlen := congrArg List.length heq
    have hpos : 0 < token.length := List.length_pos_iff.2 hne
    rw [(strtoul_token hblanks htoken hrest).1, List.length_append, List.length_append] at hlen
    omega

/-! ## Elements -/

theorem payloadLoop_passed {wellFormed : Bool} {name : String} {passed : List Node}
    (h : ∀ n ∈ passed, n.nodeType = .comment ∨ n.nodeType = .significantWhitespace) (xmlFile : List Node)
    (bytes : List (BitVec 8)) :
    payloadLoop wellFormed name (passed ++ xmlFile) bytes = payloadLoop wellFormed name xmlFile bytes := by
  induction passed with
  | nil => rfl
  | cons n passed ih =>
    obtain ⟨hn, hpassed⟩ := List.forall_mem_cons.1 h
    rw [List.cons_append, payloadLoop]
    rcases hn with hn | hn <;> rw [hn] <;> exact ih hpassed

namespace PayloadElement

variable (wellFormed : Bool) (e : PayloadElement) (xmlFile : List Node)

theorem text_textNode : e.textNode.text = e.text := String.toList_ofList

/-- The loop up to the end of the element. It is left at a text. -/
theorem payloadLoop_nodes : payloadLoop wellFormed e.name (e.nodes xmlFile) [] =
    if e.text.all isSpace then .ok ([], xmlFile)
    else if inlineCapacity < e.text.length then .error .freed else .error .rejected := by
  have hend : payloadLoop wellFormed e.name (e.after ++ e.endNode :: xmlFile) [] = .ok ([], xmlFile) := by
    rw [payloadLoop_passed fun n hn => e.passed n (List.mem_append_right _ hn), payloadLoop]
    exact if_pos rfl
  rw [nodes, payloadLoop_passed fun n hn => e.passed n (List.mem_append_left _ hn), texts]
  cases e.text.all isSpace with
  | true => exact hend
  | false =>
    rw [if_neg Bool.false_ne_true, if_neg Bool.false_ne_true, List.singleton_append, payloadLoop_text rfl,
      text_textNode]

end PayloadElement

variable {wellFormed : Bool} {e : PayloadElement} {xmlFile : List Node}

/-- There are fewer words than characters. -/
theorem tokens_length_le (text : List Char) : (tokens text).length ≤ text.length := by
  induction hlen : text.length using Nat.strong_induction_on generalizing text with
  | _ n ih =>
    rcases Shell.exists_word isSpace text with hblank | ⟨blanks, token, rest, rfl, hblanks, hne, hsolid, hrest⟩
    · rw [tokens, Shell.words_eq_nil hblank]
      exact Nat.zero_le _
    · have hpos : 0 < token.length := List.length_pos_iff.2 hne
      rw [List.length_append, List.length_append] at hlen
      have hle := ih rest.length (by omega) rest rfl
      rw [tokens_word hblanks hne hsolid hrest, List.length_cons]
      omega

/-- An element without a text is accepted. -/
theorem not_payloadExact_of_blank (hblank : e.text.all isSpace = true) : ¬PayloadExact wellFormed e xmlFile := by
  intro hexact
  have hloop := e.payloadLoop_nodes wellFormed xmlFile
  rw [hblank, if_pos rfl] at hloop
  have hlen := (hexact.accepted.1 ⟨_, hloop⟩).2
  rw [tokens, Shell.words_eq_nil (List.all_eq_true.1 hblank)] at hlen
  exact absurd hlen (by decide)

/-- The bytes of a short text that is nothing but bytes. -/
theorem bytes_eq_iff (hblank : e.text.all isSpace = false) (hshort : e.text.length ≤ inlineCapacity)
    (hne : tokens e.text ≠ []) (hall : ∀ token ∈ tokens e.text, IsHexByte token) :
    e.bytes = .ok ((tokens e.text).map hexByte) ↔ EndsBlank e.text := by
  obtain ⟨hyes, hno⟩ := moreBytes_tokens hall
  have hbytes : e.bytes = .ok (moreBytes e.text) := by
    rw [PayloadElement.bytes, hblank, if_neg Bool.false_ne_true, ← liveBytes_eq (strtoulRest_ne hne hall)]
    exact readCopy_eq_ok.2 ⟨hshort, rfl⟩
  rw [hbytes, Except.ok.injEq]
  refine ⟨fun hsame => ?_, hyes⟩
  by_contra hend
  have hlen := congrArg List.length hsame
  have hpos := List.length_pos_iff.2 hne
  rw [hno hend, List.length_dropLast, List.length_map] at hlen
  omega

/-- **A payload is read right exactly if its text is short, has a word, and white space stands behind the last word if
all words are bytes.** None of these texts holds a payload. -/
theorem payloadExact_iff (wellFormed : Bool) (e : PayloadElement) (xmlFile : List Node) :
    PayloadExact wellFormed e xmlFile ↔ e.text.length ≤ inlineCapacity ∧ tokens e.text ≠ [] ∧
      ((∀ token ∈ tokens e.text, IsHexByte token) → EndsBlank e.text) := by
  have hloop := e.payloadLoop_nodes wellFormed xmlFile
  cases hblank : e.text.all isSpace with
  | true =>
    refine iff_of_false (not_payloadExact_of_blank hblank) fun h => h.2.1 ?_
    exact Shell.words_eq_nil (List.all_eq_true.1 hblank)
  | false =>
    have hne : tokens e.text ≠ [] := fun hnone => by
      rw [List.all_eq_true.2 (Shell.words_eq_nil_iff.1 hnone)] at hblank
      cases hblank
    rw [hblank, if_neg Bool.false_ne_true] at hloop
    by_cases hshort : e.text.length ≤ inlineCapacity
    · rw [if_neg (Nat.not_lt.2 hshort)] at hloop
      rw [and_iff_right hshort, and_iff_right hne]
      constructor
      · exact fun hexact hall => (bytes_eq_iff hblank hshort hne hall).1 (hexact.bytes hall)
      · intro hend
        refine ⟨fun hfreed => ?_, fun hall => (bytes_eq_iff hblank hshort hne hall).2 (hend hall), ?_⟩
        · rw [hloop] at hfreed
          cases hfreed
        -- Too few words, and no byte.
        have hfew := tokens_length_le e.text
        rw [inlineCapacity] at hshort
        rw [hloop, idealDataSize]
        refine iff_of_false ?_ fun h => ?_
        · rintro ⟨result, h⟩
          cases h
        · have hmany := h.2
          omega
    · rw [if_pos (Nat.lt_of_not_le hshort)] at hloop
      exact iff_of_false (fun hexact => hexact.defined hloop) fun h => hshort h.1

/-- A last byte that nothing follows is lost. -/
theorem payload_not_exact : ¬∀ (wellFormed : Bool) (e : PayloadElement) (xmlFile : List Node),
    PayloadExact wellFormed e xmlFile := by
  intro h
  have hexact := h true ⟨"prp", "86".toList, [], [], fun n hn => absurd hn List.not_mem_nil⟩ []
  have htokens : tokens "86".toList = ["86".toList] := by decide
  have hall : ∀ token ∈ tokens "86".toList, IsHexByte token := by
    rw [htokens]
    intro token hmem
    rw [List.mem_singleton.1 hmem]
    decide
  obtain ⟨c, hc, hspace⟩ :=
    (bytes_eq_iff (by decide) (by decide) (htokens ▸ List.cons_ne_nil _ _) hall).1 (hexact.bytes hall)
  obtain rfl : c = '6' := Option.some.inj (Option.mem_def.1 hc).symm
  cases hspace

end Tnvme
