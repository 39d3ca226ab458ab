import Zicade.Routing.Pac

/-! # The two formats of a proxy list

An entry is written down with what it means, and a list of entries is rendered
either as the value of a PAC script or as the bare list of the system's
resolver. What the parser makes of the text is compared with what the entries
say.
-/

namespace Zicade.Routing

open Zicade.Foundation

/-- Between entries stand semicolons and whitespace. -/
def separates (c : Char) : Bool := isWhitespace c || c == ';'

/-- `[scheme=]host:port`, with a port that fits. -/
structure Address where
  scheme : Option Text
  host : Text
  portText : Text
  port : UInt16
  scheme_word : ∀ c ∈ scheme.getD [], separates c = false
  host_ne : host ≠ []
  host_word : ∀ c ∈ host, separates c = false
  host_no_equals : '=' ∉ host
  portText_eq : fromStrRadix 10 65536 portText = some port.toNat

namespace Address

def schemePrefix : Option Text → Text
  | none => []
  | some scheme => scheme ++ ['=']

def text (address : Address) : Text :=
  schemePrefix address.scheme ++ (address.host ++ ':' :: address.portText)

def result (address : Address) : PacResult := .proxy address.host address.port

theorem portText_char (address : Address) {c : Char} (hc : c ∈ address.portText) :
    c ≠ ':' ∧ c ≠ '=' ∧ isWhitespace c = false ∧ separates c = false := by
  rcases mem_fromStrRadix_range address.portText_eq hc with rfl | hrange
  · decide
  · have hwhite := isWhitespace_of_alphanumeric hrange
    have hne : ∀ d : Char, ¬((48 ≤ d.toNat ∧ d.toNat ≤ 57) ∨ (65 ≤ d.toNat ∧ d.toNat ≤ 90) ∨
        (97 ≤ d.toNat ∧ d.toNat ≤ 122)) → c ≠ d := by
      rintro d hd rfl
      exact hd hrange
    refine ⟨hne ':' (by decide), hne '=' (by decide), hwhite, ?_⟩
    simpa [separates, hwhite] using hne ';' (by decide)

theorem schemePrefix_word (address : Address) :
    ∀ c ∈ schemePrefix address.scheme, separates c = false := by
  have hword := address.scheme_word
  cases hscheme : address.scheme with
  | none => exact fun _ hc => absurd hc List.not_mem_nil
  | some scheme =>
      rw [hscheme] at hword
      exact List.forall_mem_append.mpr ⟨hword, by decide⟩

theorem text_word (address : Address) : ∀ c ∈ address.text, separates c = false := by
  have hport : ∀ c ∈ ':' :: address.portText, separates c = false :=
    List.forall_mem_cons.mpr ⟨by decide, fun c hc => (address.portText_char hc).2.2.2⟩
  exact List.forall_mem_append.mpr
    ⟨address.schemePrefix_word, List.forall_mem_append.mpr ⟨address.host_word, hport⟩⟩

theorem text_ne (address : Address) : address.text ≠ [] := by
  simp [text]

/-- An address is no keyword: it has a colon. -/
theorem toAsciiUppercase_text_ne (address : Address) {keyword : Text} (h : ':' ∉ keyword) :
    toAsciiUppercase address.text ≠ keyword := by
  rintro rfl
  refine h (List.mem_map.mpr ⟨':', ?_, by decide⟩)
  simp [text]

theorem afterLast_text (address : Address) :
    afterLast '=' address.text = address.host ++ ':' :: address.portText := by
  have hnot : '=' ∉ address.host ++ ':' :: address.portText := by
    intro hmem
    rcases List.mem_append.mp hmem with hhost | hmem
    · exact address.host_no_equals hhost
    · rcases List.mem_cons.mp hmem with heq | hport
      · exact absurd heq (by decide)
      · exact (address.portText_char hport).2.1 rfl
  unfold text schemePrefix
  split
  next => exact afterLast_of_not_mem hnot
  next scheme _ =>
    rw [List.append_assoc]
    exact afterLast_append_cons scheme hnot

/-- What stands before the last `=` of a word reads as its scheme. -/
theorem exists_schemePrefix (word : Text) :
    ∃ scheme, word = schemePrefix scheme ++ afterLast '=' word := by
  by_cases hmem : '=' ∈ word
  · refine ⟨some (word.rdropWhile (· != '=')).dropLast, ?_⟩
    conv_lhs => rw [eq_append_afterLast hmem]
    rw [schemePrefix, List.append_assoc]
    rfl
  · exact ⟨none, (afterLast_of_not_mem hmem).symm⟩

/-- Every address is read back. -/
theorem parseAddr_text (address : Address) : parseAddr address.text = some address.result := by
  have hcolon : ':' ∉ address.portText := fun hmem => (address.portText_char hmem).1 rfl
  have htrim : trim address.portText = address.portText :=
    trim_of_no_whitespace fun c hc => (address.portText_char hc).2.2.1
  unfold parseAddr
  rw [address.afterLast_text, rsplitOnce_append_cons _ hcolon]
  simp only [if_neg address.host_ne, htrim, address.portText_eq, Option.map_some]
  rw [UInt16.ofNat_toNat, result]

end Address

/-- Only an address is read as one. -/
theorem exists_address {word : Text} {result : PacResult}
    (hword : ∀ c ∈ word, separates c = false) (h : parseAddr word = some result) :
    ∃ address : Address, address.text = word ∧ address.result = result := by
  unfold parseAddr at h
  split at h
  next => exact absurd h nofun
  next host port hsplit =>
    split at h
    next => exact absurd h nofun
    next hne =>
      obtain ⟨number, hnumber, rfl⟩ := Option.map_eq_some_iff.mp h
      obtain ⟨hafter, -⟩ := eq_of_rsplitOnce hsplit
      have hequals : '=' ∉ afterLast '=' word := not_mem_afterLast '=' word
      obtain ⟨scheme, hscheme⟩ := Address.exists_schemePrefix word
      rw [hafter] at hscheme hequals
      have hport : ∀ c ∈ port, isWhitespace c = false := by
        intro c hc
        have hsep := hword c (by rw [hscheme]; simp [hc])
        exact (Bool.or_eq_false_iff.mp hsep).1
      have hbound : number < 65536 := fromStrRadix_lt hnumber
      refine ⟨⟨scheme, host, port, .ofNat number, ?_, hne, ?_, ?_, ?_⟩, hscheme.symm, rfl⟩
      · intro c hc
        cases scheme with
        | none => exact absurd hc List.not_mem_nil
        | some scheme =>
            have hmem : c ∈ Address.schemePrefix (some scheme) := List.mem_append_left _ hc
            exact hword c (hscheme ▸ List.mem_append_left _ hmem)
      · exact fun c hc => hword c (by rw [hscheme]; simp [hc])
      · exact fun hmem => hequals (List.mem_append_left _ hmem)
      · rw [trim_of_no_whitespace hport] at hnumber
        rw [hnumber, UInt16.toNat_ofNat_of_lt' hbound]

/-! ## Entries -/

/-- What may follow the first word within an entry: nothing, or text after a
blank. -/
structure Tail where
  text : Text
  blank : ∀ c ∈ text.head?, isWhitespace c
  within : ∀ c ∈ text, endsEntry c = false

def Tail.empty : Tail where
  text := []
  blank _ h := nomatch h
  within _ h := nomatch h

/-- `SOCKS`, with or without a version, in any case. -/
def IsSocks (t : Text) : Prop :=
  ∃ version : Text, toAsciiUppercase t = socks ++ version ∧ ∀ c ∈ version, c.isDigit

/-- One entry as the formats have it. -/
inductive Entry
  | direct (keyword : Text) (hkeyword : toAsciiUppercase keyword = Routing.direct) (tail : Tail)
  | proxy (keyword : Text) (hkeyword : toAsciiUppercase keyword = Routing.proxy)
      (gap : Tail) (hgap : ∀ c ∈ gap.text, isWhitespace c) (hne : gap.text ≠ [])
      (address : Address) (tail : Tail)
  | proxyWithout (keyword : Text) (hkeyword : toAsciiUppercase keyword = Routing.proxy)
      (tail : Tail) (hnone : ∀ address : Address, firstWord tail.text ≠ address.text)
  | socks (keyword : Text) (hkeyword : IsSocks keyword) (tail : Tail)
  | socksScheme (scheme : Text) (hscheme : IsSocks scheme) (rest : Text)
      (hrest : ∀ c ∈ rest, separates c = false) (tail : Tail)
  | malformed (word : Text) (hword : ∀ c ∈ word, separates c = false) (hne : word ≠ [])
      (hdirect : toAsciiUppercase word ≠ Routing.direct)
      (hproxy : toAsciiUppercase word ≠ Routing.proxy)
      (hnone : ∀ address : Address, word ≠ address.text) (tail : Tail)
  | bare (address : Address)
      (hscheme : ∀ scheme rest, address.text = scheme ++ '=' :: rest → ¬IsSocks scheme)

namespace Entry

/-- The word an entry begins with. -/
def word : Entry → Text
  | direct keyword .. => keyword
  | proxy keyword .. => keyword
  | proxyWithout keyword .. => keyword
  | socks keyword .. => keyword
  | socksScheme scheme _ rest .. => scheme ++ '=' :: rest
  | malformed word .. => word
  | bare address _ => address.text

/-- What follows the first word. -/
def following : Entry → Text
  | direct _ _ tail => tail.text
  | proxy _ _ gap _ _ address tail => gap.text ++ (address.text ++ tail.text)
  | proxyWithout _ _ tail _ => tail.text
  | socks _ _ tail => tail.text
  | socksScheme _ _ _ _ tail => tail.text
  | malformed _ _ _ _ _ _ tail => tail.text
  | bare .. => []

def text (entry : Entry) : Text := entry.word ++ entry.following

/-- What a usable entry decides. -/
def decision : Entry → Option PacResult
  | direct .. => some .direct
  | proxy _ _ _ _ _ address _ => some address.result
  | bare address _ => some address.result
  | _ => none

/-- The entries of the resolver's list: single words without a keyword. -/
def isBare : Entry → Bool
  | socksScheme _ _ _ _ tail => tail.text.isEmpty
  | malformed _ _ _ _ _ _ tail => tail.text.isEmpty
  | bare .. => true
  | _ => false

/-- A bare entry that merely begins like the keyword. -/
def beginsSocks : Entry → Bool
  | bare address _ => Routing.socks.isPrefixOf (toAsciiUppercase address.text)
  | _ => false

end Entry

/-! ### Words -/

theorem toUpper_of_separates {c : Char} (hc : separates c) : c.toUpper = c := by
  have hlower : ¬(97 ≤ c.toNat ∧ c.toNat ≤ 122) := by
    intro hlower
    have hwhite := isWhitespace_of_alphanumeric (.inr (.inr hlower))
    rw [separates, hwhite, Bool.false_or, beq_iff_eq] at hc
    rw [hc] at hlower
    revert hlower
    decide
  refine dif_neg ?_
  rintro ⟨hge, hle⟩
  exact hlower ⟨hge, hle⟩

/-- A keyword in any case is a word if the keyword is. -/
theorem word_of_toAsciiUppercase {t : Text}
    (hupper : ∀ c ∈ toAsciiUppercase t, separates c = false) :
    ∀ c ∈ t, separates c = false := by
  intro c hc
  rw [Bool.eq_false_iff]
  intro hsep
  have hmem : c.toUpper ∈ toAsciiUppercase t := List.mem_map_of_mem hc
  rw [toUpper_of_separates hsep] at hmem
  exact absurd hsep (by rw [hupper c hmem]; decide)

theorem IsSocks.word {t : Text} (h : IsSocks t) : ∀ c ∈ t, separates c = false := by
  obtain ⟨version, hupper, hdigits⟩ := h
  apply word_of_toAsciiUppercase
  rw [hupper]
  intro c hc
  rcases List.mem_append.mp hc with hsocks | hversion
  · exact (by decide : ∀ d ∈ socks, separates d = false) c hsocks
  · have hdigit := hdigits c hversion
    simp only [Char.isDigit, Bool.and_eq_true, decide_eq_true_eq] at hdigit
    have hrange : 48 ≤ c.toNat ∧ c.toNat ≤ 57 := hdigit
    have hwhite := isWhitespace_of_alphanumeric (.inl hrange)
    rw [separates, hwhite, Bool.false_or, beq_eq_false_iff_ne]
    rintro rfl
    revert hrange
    decide

theorem IsSocks.isPrefixOf {t : Text} (h : IsSocks t) (rest : Text) :
    socks.isPrefixOf (toAsciiUppercase (t ++ rest)) := by
  obtain ⟨version, hupper, -⟩ := h
  rw [toAsciiUppercase, List.map_append, ← toAsciiUppercase, hupper, List.append_assoc]
  exact List.isPrefixOf_iff_prefix.mpr (List.prefix_append _ _)

namespace Entry

theorem word_separates (entry : Entry) : ∀ c ∈ entry.word, separates c = false := by
  cases entry with
  | direct keyword hkeyword | proxy keyword hkeyword | proxyWithout keyword hkeyword =>
      exact word_of_toAsciiUppercase (hkeyword ▸ by decide)
  | socks keyword hkeyword => exact hkeyword.word
  | socksScheme scheme hscheme rest hrest =>
      exact List.forall_mem_append.mpr
        ⟨hscheme.word, List.forall_mem_cons.mpr ⟨by decide, hrest⟩⟩
  | malformed word hword => exact hword
  | bare address => exact address.text_word

theorem word_ne (entry : Entry) : entry.word ≠ [] := by
  cases entry with
  | direct keyword hkeyword | proxy keyword hkeyword | proxyWithout keyword hkeyword =>
      rintro rfl
      exact absurd hkeyword (by decide)
  | socks keyword hkeyword =>
      rintro rfl
      exact absurd (hkeyword.isPrefixOf []) (by decide)
  | socksScheme => simp [word]
  | malformed word hword hne => exact hne
  | bare address => exact address.text_ne

theorem following_blank (entry : Entry) : ∀ c ∈ entry.following.head?, isWhitespace c := by
  cases entry with
  | direct _ _ tail | proxyWithout _ _ tail | socks _ _ tail | socksScheme _ _ _ _ tail
  | malformed _ _ _ _ _ _ tail => exact tail.blank
  | proxy _ _ gap hgap hne =>
      intro c hc
      rw [following, List.head?_append_of_ne_nil _ hne] at hc
      exact gap.blank c hc
  | bare => nofun

theorem within (entry : Entry) : ∀ c ∈ entry.text, endsEntry c = false := by
  have hends : ∀ c, separates c = false → endsEntry c = false := by
    intro c hc
    rw [Bool.eq_false_iff]
    intro hend
    rcases Bool.or_eq_true_iff.mp hend with heq | heq
    · rw [beq_iff_eq.mp heq] at hc
      exact absurd hc (by decide)
    · rw [beq_iff_eq.mp heq] at hc
      exact absurd hc (by decide)
  have hword : ∀ c ∈ entry.word, endsEntry c = false :=
    fun c hc => hends c (entry.word_separates c hc)
  refine List.forall_mem_append.mpr ⟨hword, ?_⟩
  cases entry with
  | direct _ _ tail | proxyWithout _ _ tail | socks _ _ tail | socksScheme _ _ _ _ tail
  | malformed _ _ _ _ _ _ tail => exact tail.within
  | proxy _ _ gap _ _ address tail =>
      have haddress : ∀ c ∈ address.text, endsEntry c = false :=
        fun c hc => hends c (address.text_word c hc)
      exact List.forall_mem_append.mpr
        ⟨gap.within, List.forall_mem_append.mpr ⟨haddress, tail.within⟩⟩
  | bare => exact fun _ hc => absurd hc List.not_mem_nil

end Entry

/-! ## What the parser makes of one entry -/

theorem blank_append {front back : Text} (hfront : ∀ c ∈ front.head?, isWhitespace c)
    (hback : ∀ c ∈ back.head?, isWhitespace c) : ∀ c ∈ (front ++ back).head?, isWhitespace c := by
  intro c hc
  cases front with
  | nil => exact hback c hc
  | cons first rest => exact hfront c hc

theorem parseEntry_word_append {word rest : Text} (hne : word ≠ [])
    (hword : ∀ c ∈ word, separates c = false) (hrest : ∀ c ∈ rest.head?, isWhitespace c) :
    parseEntry (word ++ rest) =
      if toAsciiUppercase word = direct then some .direct
      else if toAsciiUppercase word = proxy then (splitWhitespace rest).head?.bind parseAddr
      else if socks.isPrefixOf (toAsciiUppercase word) then none
      else parseAddr word := by
  have hsplit : splitWhitespace (trim (word ++ rest)) = word :: splitWhitespace rest := by
    rw [splitWhitespace_trim, splitWhitespace_append _ hrest, splitWhitespace_word hne]
    · rfl
    · exact fun c hc => (Bool.or_eq_false_iff.mp (hword c hc)).1
  rw [parseEntry, hsplit]

theorem parseEntry_of_socks {word rest : Text} (hne : word ≠ [])
    (hword : ∀ c ∈ word, separates c = false) (hrest : ∀ c ∈ rest.head?, isWhitespace c)
    (hsocks : socks.isPrefixOf (toAsciiUppercase word)) : parseEntry (word ++ rest) = none := by
  have hdirect : toAsciiUppercase word ≠ direct := by
    intro heq
    exact absurd (heq ▸ hsocks) (by decide)
  have hproxy : toAsciiUppercase word ≠ proxy := by
    intro heq
    exact absurd (heq ▸ hsocks) (by decide)
  rw [parseEntry_word_append hne hword hrest, if_neg hdirect, if_neg hproxy, if_pos hsocks]

/-- A word that is no address is skipped, unless it is one of the keywords. -/
theorem parseEntry_of_no_address {word rest : Text} (hne : word ≠ [])
    (hword : ∀ c ∈ word, separates c = false) (hrest : ∀ c ∈ rest.head?, isWhitespace c)
    (hdirect : toAsciiUppercase word ≠ direct) (hproxy : toAsciiUppercase word ≠ proxy)
    (hnone : ∀ address : Address, word ≠ address.text) : parseEntry (word ++ rest) = none := by
  rw [parseEntry_word_append hne hword hrest, if_neg hdirect, if_neg hproxy]
  split
  next => rfl
  next =>
    rw [Option.eq_none_iff_forall_ne_some]
    intro result hresult
    obtain ⟨address, htext, -⟩ := exists_address hword hresult
    exact hnone address htext.symm

namespace Entry

/-- What the parser sees in an entry: its decision, but for a bare entry that
begins like the keyword `SOCKS`. -/
def seen (entry : Entry) : Option PacResult :=
  if entry.beginsSocks then none else entry.decision

theorem following_append_blank (entry : Entry) (junk : Tail) :
    ∀ c ∈ (entry.following ++ junk.text).head?, isWhitespace c :=
  blank_append entry.following_blank junk.blank

/-- The first word of what follows is plain: it is read as an address or not at all. -/
theorem parseAddr_firstWord {tail : Tail}
    (hnone : ∀ address : Address, firstWord tail.text ≠ address.text) :
    (splitWhitespace tail.text).head?.bind parseAddr = none := by
  cases hhead : (splitWhitespace tail.text).head? with
  | none => rfl
  | some first =>
      have hfirst : firstWord tail.text = first := by
        rw [firstWord, List.headD_eq_head?_getD, hhead, Option.getD_some]
      have hplain : ∀ c ∈ first, separates c = false := by
        intro c hc
        rw [← hfirst, firstWord_eq] at hc
        have hwhite := List.mem_takeWhile_imp hc
        have hmem := (List.dropWhile_sublist _).mem ((List.takeWhile_sublist _).mem hc)
        have hend := (Bool.or_eq_false_iff.mp (tail.within c hmem)).1
        rw [separates, hend, Bool.or_false]
        simpa using hwhite
      rw [Option.bind_some, Option.eq_none_iff_forall_ne_some]
      intro result hresult
      obtain ⟨address, htext, -⟩ := exists_address hplain hresult
      exact hnone address (hfirst.trans htext.symm)

/-- Within its own entry the parser reads each entry for what it is, whatever
blanks follow it, and a bare one whatever words do. -/
theorem parseEntry_text_append (entry : Entry) (junk : Tail)
    (hfit : entry.isBare ∨ ∀ c ∈ junk.text, isWhitespace c) :
    parseEntry (entry.text ++ junk.text) = entry.seen := by
  have hne := entry.word_ne
  have hword := entry.word_separates
  have hblank := entry.following_append_blank junk
  rw [text, List.append_assoc, seen]
  cases entry with
  | direct keyword hkeyword tail =>
      rw [parseEntry_word_append hne hword hblank]
      exact if_pos hkeyword
  | proxy keyword hkeyword gap hgap hgapNe address tail =>
      have htail := blank_append tail.blank junk.blank
      have hwords : splitWhitespace (gap.text ++ (address.text ++ tail.text) ++ junk.text) =
          address.text :: splitWhitespace (tail.text ++ junk.text) := by
        rw [List.append_assoc, splitWhitespace_append_left _ hgap, List.append_assoc,
          splitWhitespace_append _ htail, splitWhitespace_word address.text_ne]
        · rfl
        · exact fun c hc => (Bool.or_eq_false_iff.mp (address.text_word c hc)).1
      rw [parseEntry_word_append hne hword hblank, word, hkeyword, if_neg (by decide), if_pos rfl,
        following, hwords]
      exact address.parseAddr_text
  | proxyWithout keyword hkeyword tail hnone =>
      have hjunk := hfit.resolve_left nofun
      rw [parseEntry_word_append hne hword hblank, word, hkeyword, if_neg (by decide), if_pos rfl,
        following, splitWhitespace_append _ junk.blank, splitWhitespace_blank hjunk,
        List.append_nil]
      exact parseAddr_firstWord hnone
  | socks keyword hkeyword tail =>
      have hprefix := hkeyword.isPrefixOf []
      rw [List.append_nil] at hprefix
      exact parseEntry_of_socks hne hword hblank hprefix
  | socksScheme scheme hscheme rest hrest tail =>
      exact parseEntry_of_socks hne hword hblank (hscheme.isPrefixOf _)
  | malformed word _ _ hdirect hproxy hnone tail =>
      exact parseEntry_of_no_address hne hword hblank hdirect hproxy hnone
  | bare address hscheme =>
      by_cases hsocks : Routing.socks.isPrefixOf (toAsciiUppercase address.text)
      · rw [parseEntry_of_socks hne hword hblank hsocks, beginsSocks, if_pos hsocks]
      · rw [parseEntry_word_append hne hword hblank, beginsSocks, if_neg hsocks, word,
          if_neg (address.toAsciiUppercase_text_ne (by decide)),
          if_neg (address.toAsciiUppercase_text_ne (by decide)), if_neg hsocks]
        exact address.parseAddr_text

end Entry

/-! ## Where entries end -/

/-- The first decision among the parser's entries. -/
def firstUsable (t : Text) : Option PacResult := (t.splitOnP endsEntry).findSome? parseEntry

theorem parse_eq (t : Text) : PacResult.parse t = (firstUsable t).getD .direct := rfl

theorem firstUsable_append_cons (t rest : Text) {c : Char} (hc : endsEntry c) :
    firstUsable (t ++ c :: rest) = (firstUsable t).or (firstUsable rest) := by
  rw [firstUsable, List.splitOnP_append_cons _ _ hc, List.findSome?_append]
  rfl

theorem firstUsable_entry {t : Text} (ht : ∀ c ∈ t, endsEntry c = false) :
    firstUsable t = parseEntry t := by
  rw [firstUsable, List.splitOnP_eq_singleton ht, List.findSome?_singleton]

theorem firstUsable_nil : firstUsable [] = none := by
  rw [firstUsable_entry fun _ hc => absurd hc List.not_mem_nil]
  rfl

theorem parseEntry_cons_whitespace {c : Char} (t : Text) (hc : isWhitespace c) :
    parseEntry (c :: t) = parseEntry t := by
  rw [parseEntry, parseEntry, splitWhitespace_trim, splitWhitespace_trim,
    splitWhitespace_cons_whitespace t hc]

/-- What separates entries is skipped at the front. -/
theorem firstUsable_append_left {pad : Text} (t : Text) (hpad : ∀ c ∈ pad, separates c) :
    firstUsable (pad ++ t) = firstUsable t := by
  induction pad with
  | nil => rfl
  | cons c rest ih =>
      have htail := ih fun d hd => hpad d (List.mem_cons_of_mem c hd)
      rw [List.cons_append, ← htail]
      by_cases hend : endsEntry c
      · exact firstUsable_append_cons [] (rest ++ t) hend
      · have hwhite : isWhitespace c := by
          rcases Bool.or_eq_true_iff.mp (hpad c List.mem_cons_self) with hwhite | hsemi
          · exact hwhite
          · exact absurd (Bool.or_eq_true_iff.mpr (.inl hsemi)) hend
        obtain ⟨chunk, chunks, hchunks⟩ :=
          List.exists_cons_of_ne_nil (List.splitOnP_ne_nil endsEntry (rest ++ t))
        rw [firstUsable, firstUsable, List.splitOnP_cons_eq_if_modifyHead, if_neg hend, hchunks,
          List.modifyHead_cons, List.findSome?_cons, List.findSome?_cons,
          parseEntry_cons_whitespace chunk hwhite]

/-! ## Rendered lists -/

/-- An entry with what stands before it. -/
structure Item where
  separator : Text
  separator_separates : ∀ c ∈ separator, separates c
  entry : Entry

namespace Item

def text (item : Item) : Text := item.separator ++ item.entry.text

/-- The parser starts a new entry here. -/
def leads (item : Item) : Bool := item.separator.any endsEntry

end Item

/-- The value of a PAC script: a semicolon between any two entries. -/
def PacValue (items : List Item) : Prop := ∀ item ∈ items.tail, ';' ∈ item.separator

/-- The resolver's list: bare entries with a semicolon or whitespace between any two. -/
def ProxyList (items : List Item) : Prop :=
  (∀ item ∈ items, item.entry.isBare) ∧ ∀ item ∈ items.tail, item.separator ≠ []

/-- A list of entries in one of the two formats. -/
structure Rendering where
  items : List Item
  trail : Text
  trail_separates : ∀ c ∈ trail, separates c
  format : PacValue items ∨ ProxyList items

namespace Rendering

def text (rendering : Rendering) : Text :=
  rendering.items.flatMap Item.text ++ rendering.trail

/-- What the entries say: the first usable one decides. -/
def verdict (rendering : Rendering) : PacResult :=
  (rendering.items.findSome? (·.entry.decision)).getD .direct

/-- The entries in order, and whether the parser looks at each: it does at the
start of the text and after a semicolon or a line feed, except where a bare
entry begins like the keyword `SOCKS`. -/
def placed (rendering : Rendering) : List (Bool × Entry) :=
  match rendering.items with
  | [] => []
  | first :: rest =>
      (!first.entry.beginsSocks, first.entry) ::
        rest.map fun item => (item.leads && !item.entry.beginsSocks, item.entry)

/-- The decision of the first usable entry that the parser looks at. -/
def firstInSight (rendering : Rendering) : Option PacResult :=
  rendering.placed.findSome? fun place => if place.1 then place.2.decision else none

/-- The parser looks at the first usable entry, or the first usable one it looks
at decides the same. -/
def Clear (rendering : Rendering) : Prop :=
  ∀ place ∈ rendering.placed.find? (·.2.decision.isSome),
    place.1 = true ∨ rendering.firstInSight = place.2.decision

end Rendering

/-! ## What the parser makes of a rendered list -/

/-- Whatever the format puts after the text within the same entry, the entry
decides the same. -/
structure Settled (listed : Bool) (front : Text) (seen : Option PacResult) : Prop where
  within : ∀ c ∈ front, endsEntry c = false
  settles : ∀ junk : Tail, (listed ∨ ∀ c ∈ junk.text, isWhitespace c) →
    parseEntry (front ++ junk.text) = seen

theorem Entry.settled {listed : Bool} (entry : Entry) (hlisted : listed → entry.isBare) :
    Settled listed entry.text entry.seen where
  within := entry.within
  settles junk hfit := entry.parseEntry_text_append junk (hfit.imp_left hlisted)

theorem isWhitespace_of_within {pad : Text} (hpad : ∀ c ∈ pad, separates c)
    (hends : ∀ c ∈ pad, endsEntry c = false) : ∀ c ∈ pad, isWhitespace c := by
  intro c hc
  rcases Bool.or_eq_true_iff.mp (hpad c hc) with hwhite | hsemi
  · exact hwhite
  · have hend : endsEntry c = true := Bool.or_eq_true_iff.mpr (.inl hsemi)
    exact absurd hend (by simp [hends c hc])

namespace Settled

variable {listed : Bool} {front : Text} {seen : Option PacResult}

/-- Within a listed entry further words change nothing. -/
theorem extend (h : Settled true front seen) {pad : Text} (hne : pad ≠ [])
    (hpad : ∀ c ∈ pad, isWhitespace c) (hends : ∀ c ∈ pad, endsEntry c = false) (entry : Entry) :
    Settled true (front ++ (pad ++ entry.text)) seen where
  within := List.forall_mem_append.mpr
    ⟨h.within, List.forall_mem_append.mpr ⟨hends, entry.within⟩⟩
  settles junk _ := by
    have hblank : ∀ c ∈ (pad ++ (entry.text ++ junk.text)).head?, isWhitespace c := by
      intro c hc
      rw [List.head?_append_of_ne_nil _ hne] at hc
      exact hpad c (List.mem_of_head? hc)
    have hwithin : ∀ c ∈ pad ++ (entry.text ++ junk.text), endsEntry c = false :=
      List.forall_mem_append.mpr
        ⟨hends, List.forall_mem_append.mpr ⟨entry.within, junk.within⟩⟩
    rw [List.append_assoc, List.append_assoc]
    exact h.settles ⟨_, hblank, hwithin⟩ (.inl rfl)

theorem firstUsable_blank (h : Settled listed front seen) {pad : Text}
    (hpad : ∀ c ∈ pad, separates c) (hends : ∀ c ∈ pad, endsEntry c = false) :
    firstUsable (front ++ pad) = seen := by
  have hwhite := isWhitespace_of_within hpad hends
  have hwithin := List.forall_mem_append.mpr ⟨h.within, hends⟩
  rw [firstUsable_entry hwithin]
  exact h.settles ⟨pad, fun c hc => hwhite c (List.mem_of_head? hc), hends⟩ (.inr hwhite)

/-- Where the entry ends, the next one is read if it decided nothing. -/
theorem firstUsable_append (h : Settled listed front seen) {pad : Text} (rest : Text)
    (hpad : ∀ c ∈ pad, separates c) (hends : pad.any endsEntry) :
    firstUsable (front ++ (pad ++ rest)) = seen.or (firstUsable rest) := by
  -- the first of the characters that end an entry
  obtain ⟨c, hfind⟩ := Option.isSome_iff_exists.mp
    (List.find?_isSome.mpr (List.any_eq_true.mp hends))
  obtain ⟨hc, before, after, rfl, hbefore⟩ := List.find?_eq_some_iff_append.mp hfind
  have hfirst : firstUsable (front ++ before) = seen :=
    h.firstUsable_blank (fun d hd => hpad d (List.mem_append_left _ hd))
      fun d hd => by simpa using hbefore d hd
  have hafter : ∀ d ∈ after, separates d := fun d hd =>
    hpad d (List.mem_append_right _ (List.mem_cons_of_mem c hd))
  rw [show front ++ (before ++ c :: after ++ rest) = front ++ before ++ c :: (after ++ rest) by
    simp, firstUsable_append_cons _ _ hc, hfirst, firstUsable_append_left rest hafter]

/-- The text goes on with entries as the format allows: those that begin one for
the parser are read, and the others are not. -/
theorem firstUsable_items (h : Settled listed front seen) {items : List Item} {trail : Text}
    (hlisted : ∀ item ∈ items, listed → item.entry.isBare ∧ item.separator ≠ [])
    (hvalue : ∀ item ∈ items, listed = false → ';' ∈ item.separator)
    (htrail : ∀ c ∈ trail, separates c) :
    firstUsable (front ++ (items.flatMap Item.text ++ trail)) =
      seen.or (items.findSome? fun item => if item.leads then item.entry.seen else none) := by
  induction items generalizing front seen with
  | nil =>
      rw [List.flatMap_nil, List.nil_append, List.findSome?_nil, Option.or_none]
      cases hends : trail.any endsEntry with
      | true =>
          have hread := h.firstUsable_append [] htrail hends
          rw [List.append_nil] at hread
          rw [hread, firstUsable_nil, Option.or_none]
      | false =>
          refine h.firstUsable_blank htrail fun c hc => ?_
          simpa using List.any_eq_false.mp hends c hc
  | cons item rest ih =>
      have hnext : Settled listed item.entry.text item.entry.seen :=
        item.entry.settled fun hl => (hlisted item List.mem_cons_self hl).1
      have hlistedRest := fun other hmem => hlisted other (List.mem_cons_of_mem item hmem)
      have hvalueRest := fun other hmem => hvalue other (List.mem_cons_of_mem item hmem)
      rw [List.flatMap_cons, List.append_assoc, List.findSome?_cons]
      cases hleads : item.leads with
      | true =>
          rw [Item.text, List.append_assoc,
            h.firstUsable_append _ item.separator_separates hleads,
            ih hnext hlistedRest hvalueRest, if_pos rfl]
          cases item.entry.seen <;> rfl
      | false =>
          have hends : ∀ c ∈ item.separator, endsEntry c = false := fun c hc => by
            simpa using List.any_eq_false.mp hleads c hc
          -- only the resolver's list has entries with no end between them
          have hisListed : listed = true := by
            rw [← Bool.not_eq_false]
            intro hnot
            exact absurd (hends ';' (hvalue item List.mem_cons_self hnot)) (by decide)
          subst hisListed
          have hwhite := isWhitespace_of_within item.separator_separates hends
          have hne := (hlisted item List.mem_cons_self rfl).2
          rw [Item.text, ← List.append_assoc front,
            ih (h.extend hne hwhite hends item.entry) hlistedRest hvalueRest]
          simp

end Settled

namespace Rendering

/-- The parser decides on the first usable entry it looks at. -/
theorem parse_text (rendering : Rendering) :
    PacResult.parse rendering.text = rendering.firstInSight.getD .direct := by
  obtain ⟨items, trail, htrail, hformat⟩ := rendering
  rw [parse_eq]
  congr 1
  cases items with
  | nil =>
      have hnil := firstUsable_append_left [] htrail
      rw [List.append_nil, firstUsable_nil] at hnil
      exact hnil
  | cons first rest =>
      have hread : firstUsable (first.entry.text ++ (rest.flatMap Item.text ++ trail)) =
          first.entry.seen.or
            (rest.findSome? fun item => if item.leads then item.entry.seen else none) := by
        rcases hformat with hvalue | ⟨hbare, hne⟩
        · have hfirst : Settled false first.entry.text first.entry.seen :=
            first.entry.settled nofun
          exact hfirst.firstUsable_items (fun _ _ => nofun) (fun item hmem _ => hvalue item hmem)
            htrail
        · have hfirst : Settled true first.entry.text first.entry.seen :=
            first.entry.settled fun _ => hbare first List.mem_cons_self
          refine hfirst.firstUsable_items (fun item hmem _ => ⟨?_, hne item hmem⟩)
            (fun _ _ => nofun) htrail
          exact hbare item (List.mem_cons_of_mem first hmem)
      rw [text, List.flatMap_cons, List.append_assoc, Item.text, List.append_assoc,
        firstUsable_append_left _ first.separator_separates, hread, firstInSight, placed,
        List.findSome?_cons, List.findSome?_map]
      have hseen : ∀ item : Item, (if item.leads && !item.entry.beginsSocks
          then item.entry.decision else none) =
            if item.leads then item.entry.seen else none := by
        intro item
        rw [Entry.seen]
        cases item.leads <;> cases item.entry.beginsSocks <;> rfl
      simp only [Function.comp_def, hseen]
      rw [Entry.seen]
      cases first.entry.beginsSocks <;> cases first.entry.decision <;> rfl

theorem verdict_eq (rendering : Rendering) :
    rendering.verdict = (rendering.placed.findSome? (·.2.decision)).getD .direct := by
  unfold verdict placed
  split
  next hnil => rw [hnil]; rfl
  next first rest hcons =>
    rw [hcons, List.findSome?_cons, List.findSome?_cons, List.findSome?_map]
    rfl

/-- `DIRECT` is never out of the parser's sight. -/
theorem inSight_of_direct (rendering : Rendering) {place : Bool × Entry}
    (hplace : place ∈ rendering.placed) (hdirect : place.2.decision = some .direct) :
    place.1 = true := by
  obtain ⟨items, trail, htrail, hformat⟩ := rendering
  have hkind : ∀ entry : Entry, entry.decision = some .direct →
      entry.isBare = false ∧ entry.beginsSocks = false := by
    intro entry hentry
    cases entry with
    | direct => exact ⟨rfl, rfl⟩
    | proxy | bare => cases hentry
    | proxyWithout | socks | socksScheme | malformed => cases hentry
  cases items with
  | nil => cases hplace
  | cons first rest =>
      rcases List.mem_cons.mp hplace with rfl | hmem
      · simp [(hkind first.entry hdirect).2]
      · obtain ⟨item, hitem, rfl⟩ := List.mem_map.mp hmem
        obtain ⟨hbare, hsocks⟩ := hkind item.entry hdirect
        rcases hformat with hvalue | ⟨hall, -⟩
        · have hleads : item.leads :=
            List.any_eq_true.mpr ⟨';', hvalue item hitem, by decide⟩
          simp [hleads, hsocks]
        · have := hall item (List.mem_cons_of_mem first hitem)
          exact absurd this (by simp [hbare])

/-- Unusable entries decide nothing, in sight or not. -/
theorem findSome?_unusable {places : List (Bool × Entry)}
    (hplaces : ∀ place ∈ places, place.2.decision = none) :
    places.findSome? (·.2.decision) = none ∧
      (places.findSome? fun place => if place.1 then place.2.decision else none) = none := by
  refine ⟨List.findSome?_eq_none_iff.mpr hplaces, List.findSome?_eq_none_iff.mpr ?_⟩
  intro place hmem
  rw [hplaces place hmem, ite_self]

/-- For every list of entries in either format, the parser returns what the
first usable entry says exactly when it looks at that entry, or the first
usable one it looks at says the same. -/
theorem parse_eq_verdict_iff (rendering : Rendering) :
    PacResult.parse rendering.text = rendering.verdict ↔ rendering.Clear := by
  rw [parse_text, verdict_eq, Clear]
  cases hfind : rendering.placed.find? (·.2.decision.isSome) with
  | none =>
      have hnone : ∀ place ∈ rendering.placed, place.2.decision = none := by
        intro place hmem
        simpa using List.find?_eq_none.mp hfind place hmem
      obtain ⟨hsaid, hsight⟩ := findSome?_unusable hnone
      rw [firstInSight, hsight, hsaid]
      exact iff_of_true rfl nofun
  | some place =>
      obtain ⟨husable, before, after, hplaced, hbefore⟩ :=
        List.find?_eq_some_iff_append.mp hfind
      obtain ⟨said, hsaid⟩ := Option.isSome_iff_exists.mp husable
      -- the entries before it are unusable, so it is the one that says
      have hunusable : ∀ other ∈ before, other.2.decision = none := by
        intro other hmem
        simpa using hbefore other hmem
      obtain ⟨hbeforeSaid, hbeforeSight⟩ := findSome?_unusable hunusable
      have hverdict : rendering.placed.findSome? (·.2.decision) = some said := by
        rw [hplaced, List.findSome?_append, hbeforeSaid, Option.none_or, List.findSome?_cons, hsaid]
      have hsight : place.1 = true → rendering.firstInSight = some said := by
        intro hplace
        rw [firstInSight, hplaced, List.findSome?_append, hbeforeSight, Option.none_or,
          List.findSome?_cons, if_pos hplace, hsaid]
      rw [hverdict, Option.getD_some]
      constructor
      · intro hparse other hother
        obtain rfl := Option.mem_some.mp hother
        cases hfirst : rendering.firstInSight with
        | none =>
            -- nothing usable in sight reads as `DIRECT`, which is always in sight
            rw [hfirst, Option.getD_none] at hparse
            have hmem : place ∈ rendering.placed := List.mem_of_find?_eq_some hfind
            exact .inl (rendering.inSight_of_direct hmem (hsaid.trans (congrArg some hparse.symm)))
        | some result =>
            rw [hfirst, Option.getD_some] at hparse
            exact .inr (hsaid.trans (congrArg some hparse.symm)).symm
      · intro hclear
        rcases hclear place rfl with hplace | hfirst
        · rw [hsight hplace, Option.getD_some]
        · rw [hfirst, hsaid, Option.getD_some]

/-- In a script's value the parser looks at every entry but a bare one that
begins like the keyword `SOCKS`. -/
theorem clear_of_pacValue (rendering : Rendering) (hvalue : PacValue rendering.items)
    (hsocks : ∀ item ∈ rendering.items, item.entry.beginsSocks = false) : rendering.Clear := by
  intro place hplace
  have hmem : place ∈ rendering.placed := List.mem_of_find?_eq_some hplace
  left
  unfold placed at hmem
  split at hmem
  next => cases hmem
  next first rest hcons =>
    rw [hcons] at hsocks hvalue
    rcases List.mem_cons.mp hmem with rfl | hmem
    · simp [hsocks first List.mem_cons_self]
    · obtain ⟨item, hitem, rfl⟩ := List.mem_map.mp hmem
      have hleads : item.leads := List.any_eq_true.mpr ⟨';', hvalue item hitem, by decide⟩
      simp [hleads, hsocks item (List.mem_cons_of_mem first hitem)]

end Rendering

/-- The address `http=p:8080`. -/
def schemedAddress : Address where
  scheme := some ['h', 't', 't', 'p']
  host := ['p']
  portText := ['8', '0', '8', '0']
  port := 8080
  scheme_word := by decide
  host_ne := by decide
  host_word := by decide
  host_no_equals := by decide
  portText_eq := by decide

/-- The list `socks=s http=p:8080` of the resolver. -/
def spacedList : Rendering where
  items := [
    ⟨[], by decide, .socksScheme ['s', 'o', 'c', 'k', 's'] ⟨[], by decide, by decide⟩ ['s']
      (by decide) .empty⟩,
    ⟨[' '], by decide, .bare schemedAddress fun scheme rest htext hsocks =>
      absurd (htext ▸ hsocks.isPrefixOf ('=' :: rest)) (by decide)⟩]
  trail := []
  trail_separates := by decide
  format := .inr ⟨by decide, by decide⟩

/-- The address `socksgw:80`. -/
def namedSocksAddress : Address where
  scheme := none
  host := ['s', 'o', 'c', 'k', 's', 'g', 'w']
  portText := ['8', '0']
  port := 80
  scheme_word := by decide
  host_ne := by decide
  host_word := by decide
  host_no_equals := by decide
  portText_eq := by decide

/-- The list `socksgw:80` of the resolver. -/
def namedSocksList : Rendering where
  items := [⟨[], by decide, .bare namedSocksAddress fun scheme rest htext _ =>
    absurd (htext ▸ List.mem_append_right scheme List.mem_cons_self : '=' ∈ namedSocksAddress.text)
      (by decide)⟩]
  trail := []
  trail_separates := by decide
  format := .inr ⟨by decide, by decide⟩

/-- A proxy after whitespace is hidden by the unusable entry before it, and so is
one whose host begins like the keyword `SOCKS`. -/
theorem usable_proxy_hidden :
    (PacResult.parse spacedList.text = .direct ∧ spacedList.verdict = .proxy ['p'] 8080) ∧
      PacResult.parse namedSocksList.text ≠ namedSocksList.verdict := by
  decide

end Zicade.Routing
