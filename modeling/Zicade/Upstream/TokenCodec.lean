import Zicade.Upstream.Challenges

/-! # Tokens through the header codec

A handshake token travels as base64 text behind its keyword. It is read back from the value
the proxy itself would write, and from the first piece of a 407 that offers Negotiate or
NTLM, whichever case that keyword is in and whatever whitespace stands around.
-/

namespace Zicade.Upstream

open Zicade.Foundation Zicade.Auth

/-- What a value that carries a token offers; no bytes make a bare offer. -/
def tokenOffer (scheme : AuthScheme) (token : Bytes) : NegotiateOffer :=
  if token = [] then .offered scheme else .challenge scheme token

theorem tokenOffer_ne_notOffered (scheme : AuthScheme) (token : Bytes) :
    tokenOffer scheme token ≠ .notOffered := by
  unfold tokenOffer
  split <;> exact nofun

/-! ## Keywords in any case -/

/-- The keyword of a scheme, in some ASCII case. -/
def IsKeyword (scheme : AuthScheme) (word : Text) : Prop :=
  eqIgnoreAsciiCase word scheme.keyword = true

section

variable {scheme : AuthScheme} {word : Text} (hword : IsKeyword scheme word)
include hword

theorem IsKeyword.scheme_eq : schemeOfKeyword word = some scheme := by
  have hlower : toAsciiLowercase word = toAsciiLowercase scheme.keyword := eq_of_beq hword
  rw [schemeOfKeyword, eqIgnoreAsciiCase, eqIgnoreAsciiCase, hlower]
  cases scheme <;> decide

theorem IsKeyword.tchar : ∀ c ∈ word, isTchar c = true := by
  have hlower : toAsciiLowercase word = toAsciiLowercase scheme.keyword := eq_of_beq hword
  have hkeyword : ∀ c ∈ toAsciiLowercase scheme.keyword, isTchar c = true := by
    cases scheme <;> decide
  intro c hc
  rw [← apply_toLower (p := isTchar) (by decide) c]
  exact hkeyword _ (hlower ▸ List.mem_map_of_mem hc)

theorem IsKeyword.ne_nil : word ≠ [] := by
  rintro rfl
  have hlower : toAsciiLowercase [] = toAsciiLowercase scheme.keyword := eq_of_beq hword
  revert hlower
  cases scheme <;> decide

end

theorem exists_isKeyword {word : Text} (hsome : schemeOfKeyword word ≠ none) :
    ∃ scheme, IsKeyword scheme word := by
  have hnegotiate : toAsciiLowercase "negotiate".toList =
      toAsciiLowercase AuthScheme.negotiate.keyword := by decide
  have hntlm : toAsciiLowercase "ntlm".toList = toAsciiLowercase AuthScheme.ntlm.keyword := by
    decide
  unfold schemeOfKeyword at hsome
  split at hsome
  next heq => exact ⟨.negotiate, beq_of_eq ((eq_of_beq heq).trans hnegotiate)⟩
  next =>
    split at hsome
    next heq => exact ⟨.ntlm, beq_of_eq ((eq_of_beq heq).trans hntlm)⟩
    next => exact absurd rfl hsome

/-! ## One value -/

/-- A token written for a scheme, the way the proxy writes it but for the case of the keyword
and the whitespace. -/
structure TokenText (base64 : Base64) (scheme : AuthScheme) (token : Bytes) where
  before : Text
  keyword : Text
  sep : Char
  gap : Text
  after : Text
  before_blank : ∀ c ∈ before, isWhitespace c
  keyword_eq : IsKeyword scheme keyword
  sep_blank : isWhitespace sep
  gap_blank : ∀ c ∈ gap, isWhitespace c
  after_blank : ∀ c ∈ after, isWhitespace c

section

variable {base64 : Base64} {scheme : AuthScheme} {token : Bytes}

namespace TokenText

variable (value : TokenText base64 scheme token)

/-- The value without the whitespace around it. -/
def core : Text := value.keyword ++ value.sep :: (value.gap ++ base64.encode token)

def text : Text := value.before ++ value.core ++ value.after

theorem keyword_not_whitespace : ∀ c ∈ value.keyword, isWhitespace c = false :=
  fun c hc => isTchar_not_whitespace (value.keyword_eq.tchar c hc)

end TokenText

theorem alphabet_not_whitespace : ∀ c ∈ base64Alphabet, isWhitespace c = false := by
  decide +kernel

theorem encode_not_whitespace (base64 : Base64) (token : Bytes) :
    ∀ c ∈ base64.encode token, isWhitespace c = false :=
  fun c hc => alphabet_not_whitespace c (base64.encode_alphabet token c hc)

/-- Base64 text of no bytes is empty, and no other is. -/
theorem encode_eq_nil_iff (hempty : base64.encode [] = []) :
    base64.encode token = [] ↔ token = [] := by
  constructor
  · intro hnil
    have hdecode := base64.decode_encode token
    rw [hnil, ← hempty, base64.decode_encode] at hdecode
    exact (Option.some.inj hdecode).symm
  · rintro rfl
    exact hempty

/-- A value is read as the offer it was written for. -/
theorem parse_tokenText (hempty : base64.encode [] = [])
    (value : TokenText base64 scheme token) :
    parseProxyAuthenticate base64 value.text = tokenOffer scheme token := by
  have hkeyword := value.keyword_not_whitespace
  rw [parseProxyAuthenticate, TokenText.text, trim_append_right _ value.after_blank,
    trim_append_left _ value.before_blank, TokenText.core, tokenOffer]
  by_cases htoken : token = []
  · -- the keyword stands alone once the whitespace after it is trimmed
    have hnil : base64.encode token = [] := (encode_eq_nil_iff hempty).mpr htoken
    have hblank : ∀ c ∈ value.sep :: value.gap, isWhitespace c :=
      List.forall_mem_cons.mpr ⟨value.sep_blank, value.gap_blank⟩
    rw [hnil, List.append_nil, trim_append_right _ hblank, trim_of_no_whitespace hkeyword,
      splitWhitespaceOnce_word hkeyword, if_pos htoken]
    dsimp only
    rw [value.keyword_eq.scheme_eq]
    rfl
  · have hbody : base64.encode token ≠ [] := mt (encode_eq_nil_iff hempty).mp htoken
    have hplain := encode_not_whitespace base64 token
    have htrim : trim (value.keyword ++ value.sep :: (value.gap ++ base64.encode token)) =
        value.keyword ++ value.sep :: (value.gap ++ base64.encode token) := by
      apply trim_eq_self
      · intro c hc
        rw [List.head?_append_of_ne_nil _ value.keyword_eq.ne_nil] at hc
        exact hkeyword c (List.mem_of_head? hc)
      · intro c hc
        rw [← List.cons_append, ← List.append_assoc, List.getLast?_append_of_ne_nil _ hbody] at hc
        exact hplain c (List.mem_of_getLast? hc)
    rw [htrim, splitWhitespaceOnce_append_cons _ hkeyword value.sep_blank, if_neg htoken]
    have hkept : (some (base64.encode token)).filter (fun s => !s.isEmpty) =
        some (base64.encode token) := by
      rw [Option.filter_some, if_pos (by simpa using hbody)]
    dsimp only
    rw [value.keyword_eq.scheme_eq, Option.map_some, trim_append_left _ value.gap_blank,
      trim_of_no_whitespace hplain, hkept]
    dsimp only
    rw [base64.decode_encode]

theorem parse_trim (base64 : Base64) (piece : Text) :
    parseProxyAuthenticate base64 (trim piece) = parseProxyAuthenticate base64 piece := by
  rw [parseProxyAuthenticate, trim_trim, parseProxyAuthenticate]

/-- The value that the proxy writes itself. -/
def TokenText.written (base64 : Base64) (scheme : AuthScheme) (token : Bytes) :
    TokenText base64 scheme token where
  before := []
  keyword := scheme.keyword
  sep := ' '
  gap := []
  after := []
  before_blank := nofun
  keyword_eq := beq_self_eq_true _
  sep_blank := rfl
  gap_blank := nofun
  after_blank := nofun

theorem TokenText.written_text (base64 : Base64) (scheme : AuthScheme) (token : Bytes) :
    (written base64 scheme token).text = buildProxyAuthorization base64 scheme token := by
  rw [text, core, buildProxyAuthorization]
  exact List.append_nil _

/-! ## One piece -/

/-- A keyword is a token, so a piece that opens with one is taken for a challenge. -/
theorem startsChallenge_of_isKeyword {piece : Text} (hword : IsKeyword scheme (schemeName piece)) :
    startsChallenge piece = true := by
  rw [startsChallenge]
  simp [hword.ne_nil, List.all_eq_true.mpr hword.tchar]

namespace TokenText

variable (value : TokenText base64 scheme token)

theorem schemeName_text : schemeName value.text = value.keyword := by
  have hfirst : ∀ c, (value.sep :: (value.gap ++ base64.encode token)).head? = some c →
      isWhitespace c := fun c hc => Option.some.inj hc ▸ value.sep_blank
  rw [schemeName, text, firstWord_append_right _ value.after_blank,
    firstWord_append_left _ value.before_blank]
  exact Token.schemeName_append
    ⟨value.keyword, value.keyword_eq.ne_nil, value.keyword_eq.tchar⟩ hfirst

theorem startsChallenge_text : startsChallenge value.text = true :=
  startsChallenge_of_isKeyword (value.schemeName_text ▸ value.keyword_eq)

/-- No character of the value ends its piece. -/
theorem comma_not_mem : ',' ∉ value.text := by
  have hblank {t : Text} (ht : ∀ c ∈ t, isWhitespace c) : ',' ∉ t :=
    fun hmem => absurd (ht _ hmem) (by decide)
  have hkeyword : ',' ∉ value.keyword :=
    fun hmem => absurd (value.keyword_eq.tchar _ hmem) (by decide)
  have hsep : ',' ≠ value.sep := fun heq => absurd (heq ▸ value.sep_blank) (by decide)
  have hbody : ',' ∉ base64.encode token :=
    fun hmem => absurd (base64.encode_alphabet token _ hmem) (by decide +kernel)
  simp [text, core, hblank value.before_blank, hblank value.gap_blank, hblank value.after_blank,
    hkeyword, hsep, hbody]

theorem valuePieces_text : valuePieces value.text = [trim value.text] :=
  valuePieces_of_not_mem value.comma_not_mem

end TokenText

/-- Texts joined by commas have the pieces of each. -/
theorem valuePieces_intercalate {texts : List Text} (hne : texts ≠ []) :
    valuePieces ([','].intercalate texts) = texts.flatMap valuePieces := by
  induction texts with
  | nil => exact absurd rfl hne
  | cons text rest ih =>
      cases rest with
      | nil => simp
      | cons next more =>
          rw [List.intercalate_cons_cons, List.append_assoc, List.singleton_append, valuePieces,
            List.splitOn_append_cons_self, List.map_append, List.flatMap_cons,
            ← ih (List.cons_ne_nil next more)]
          rfl

/-! ## Among other challenges -/

/-- No piece of the value offers Negotiate or NTLM. -/
def OffersOther (value : Text) : Prop :=
  ∀ piece ∈ valuePieces value, schemeOfKeyword (schemeName piece) = none

theorem parse_eq_notOffered (base64 : Base64) {piece : Text}
    (hother : schemeOfKeyword (schemeName piece) = none) :
    parseProxyAuthenticate base64 piece = .notOffered := by
  have hscheme := parseProxyAuthenticate_scheme base64 piece
  rw [splitWhitespaceOnce_trim_fst, ← schemeName, hother] at hscheme
  cases hparse : parseProxyAuthenticate base64 piece with
  | notOffered => rfl
  | offered scheme =>
      rw [hparse] at hscheme
      cases hscheme
  | challenge scheme token =>
      rw [hparse] at hscheme
      cases hscheme

theorem startsChallenge_of_offers {piece : Text}
    (hoffers : schemeOfKeyword (schemeName piece) ≠ none) : startsChallenge piece = true := by
  obtain ⟨scheme, hword⟩ := exists_isKeyword hoffers
  exact startsChallenge_of_isKeyword hword

/-- A value that is not quoted has no comma to be split at. -/
theorem AuthParam.quiet_of_token {param : AuthParam} {word : Token}
    (hvalue : param.value = .token word) : param.Quiet := by
  intro segment hsegment
  rw [hvalue, ParamValue.render, List.splitOn_eq_singleton word.comma_not_mem] at hsegment
  exact absurd hsegment List.not_mem_nil

/-- A plain challenge of another scheme, whatever its parameters, offers neither. -/
theorem Challenge.offersOther {challenge : Challenge} (hplain : challenge.Plain)
    (hscheme : challenge.authScheme = none) : OffersOther challenge.render := by
  intro piece hpiece
  by_contra hoffers
  have hstart : piece ∈ starts challenge.render :=
    List.mem_filter.mpr ⟨hpiece, startsChallenge_of_offers hoffers⟩
  rw [challenge.starts_render, challenge.laterStarts_eq_nil_iff.mpr hplain,
    List.mem_singleton] at hstart
  rw [hstart, challenge.schemeName_start] at hoffers
  exact hoffers hscheme

/-- A header list whose first piece that offers Negotiate or NTLM is a written token: alone in
its header, or joined by commas with texts that offer other schemes. -/
structure CarriedToken (base64 : Base64) (scheme : AuthScheme) (token : Bytes) where
  front : Headers
  earlier : List Text
  value : TokenText base64 scheme token
  later : List Text
  back : Headers
  front_other : ∀ header ∈ front, header.1 = proxyAuthenticate → OffersOther header.2
  earlier_other : ∀ text ∈ earlier, OffersOther text

namespace CarriedToken

variable (carried : CarriedToken base64 scheme token)

def headerValue : Text :=
  [','].intercalate (carried.earlier ++ carried.value.text :: carried.later)

def headers : Headers :=
  carried.front ++ (proxyAuthenticate, carried.headerValue) :: carried.back

/-- A token in one header between plain challenges of other schemes. -/
def among (value : TokenText base64 scheme token) (earlier later : List Challenge)
    (hearlier : ∀ challenge ∈ earlier, challenge.Plain ∧ challenge.authScheme = none) :
    CarriedToken base64 scheme token where
  front := []
  earlier := earlier.map Challenge.render
  value
  later := later.map Challenge.render
  back := []
  front_other := nofun
  earlier_other := List.forall_mem_map.mpr fun challenge hchallenge =>
    Challenge.offersOther (hearlier challenge hchallenge).1 (hearlier challenge hchallenge).2

/-- The pieces of the headers, the token's among them. -/
theorem pieces_headers : ∃ others rest,
    ((carried.headers.filter fun header => header.1 == proxyAuthenticate).flatMap
        fun header => valuePieces header.2) = others ++ trim carried.value.text :: rest ∧
      ∀ other ∈ others, schemeOfKeyword (schemeName other) = none := by
  refine ⟨((carried.front.filter fun header => header.1 == proxyAuthenticate).flatMap
      fun header => valuePieces header.2) ++ carried.earlier.flatMap valuePieces,
    carried.later.flatMap valuePieces ++
      ((carried.back.filter fun header => header.1 == proxyAuthenticate).flatMap
        fun header => valuePieces header.2), ?_, ?_⟩
  · rw [headers, List.filter_append, List.filter_cons, if_pos (beq_self_eq_true _),
      List.flatMap_append, List.flatMap_cons, headerValue, valuePieces_intercalate (by simp),
      List.flatMap_append, List.flatMap_cons, carried.value.valuePieces_text]
    simp only [List.append_assoc, List.cons_append, List.nil_append]
  · intro other hother
    rcases List.mem_append.mp hother with hother | hother
    · obtain ⟨header, hheader, hpiece⟩ := List.mem_flatMap.mp hother
      obtain ⟨hmem, hname⟩ := List.mem_filter.mp hheader
      exact carried.front_other header hmem (eq_of_beq hname) other hpiece
    · obtain ⟨text, htext, hpiece⟩ := List.mem_flatMap.mp hother
      exact carried.earlier_other text htext other hpiece

end CarriedToken

/-- The first piece that offers decides. -/
theorem negotiateOffer_of_first {headers : Headers} {others rest : List Text} {piece : Text}
    (hpieces : ((headers.filter fun header => header.1 == proxyAuthenticate).flatMap
      fun header => valuePieces header.2) = others ++ piece :: rest)
    (hothers : ∀ other ∈ others, schemeOfKeyword (schemeName other) = none)
    (hstarts : startsChallenge piece = true)
    (hoffer : parseProxyAuthenticate base64 piece ≠ .notOffered) :
    negotiateOffer base64 headers = parseProxyAuthenticate base64 piece := by
  have hbefore : (((others.filter startsChallenge).map (parseProxyAuthenticate base64)).find?
      fun offer => offer != .notOffered) = none := by
    rw [List.find?_eq_none]
    intro offer hoffer
    obtain ⟨other, hother, rfl⟩ := List.mem_map.mp hoffer
    simp [parse_eq_notOffered base64 (hothers other (List.mem_filter.mp hother).1)]
  rw [negotiateOffer, challenges, hpieces, List.filter_append, List.filter_cons, if_pos hstarts,
    List.map_append, List.map_cons, List.find?_append, hbefore, Option.none_or,
    List.find?_cons_of_pos (by simpa using hoffer), Option.getD_some]

end

/-- Tokens survive the codec. -/
theorem tokens_survive_codec (base64 : Base64) (hempty : base64.encode [] = [])
    (scheme : AuthScheme) (token : Bytes) :
    parseProxyAuthenticate base64 (buildProxyAuthorization base64 scheme token) =
        tokenOffer scheme token ∧
      ∀ carried : CarriedToken base64 scheme token,
        negotiateOffer base64 carried.headers = tokenOffer scheme token := by
  refine ⟨?_, fun carried => ?_⟩
  · rw [← TokenText.written_text, parse_tokenText hempty]
  · obtain ⟨others, rest, hpieces, hothers⟩ := carried.pieces_headers
    have hparse : parseProxyAuthenticate base64 (trim carried.value.text) =
        tokenOffer scheme token := by
      rw [parse_trim, parse_tokenText hempty]
    have hstarts : startsChallenge (trim carried.value.text) = true := by
      rw [startsChallenge_trim, carried.value.startsChallenge_text]
    rw [negotiateOffer_of_first hpieces hothers hstarts
      (hparse ▸ tokenOffer_ne_notOffered scheme token), hparse]

def corpToken : Token := ⟨"corp".toList, by decide, by decide⟩

/-- `Basic realm=corp`. -/
def basicCorp : Challenge :=
  ⟨basicToken, .params 0 ⟨⟨[], some ⟨realmToken, [], [], .token corpToken⟩, []⟩, []⟩⟩

theorem basicCorp_plain : basicCorp.Plain := by
  refine ⟨fun param hparam => ?_, nofun⟩
  obtain rfl := List.mem_singleton.mp hparam
  exact AuthParam.quiet_of_token rfl

/-- A token in another case and with more whitespace than the proxy writes. -/
def looseToken : TokenText standardBase64 .ntlm [1, 2, 3] :=
  { TokenText.written standardBase64 .ntlm [1, 2, 3] with
    before := "\t ".toList
    keyword := "nTLM".toList
    after := "  ".toList
    before_blank := by decide
    keyword_eq := by unfold IsKeyword; decide
    after_blank := by decide }

def betweenBasics : CarriedToken standardBase64 .ntlm [1, 2, 3] :=
  .among looseToken [basicCorp] [basicCorp] fun challenge hchallenge => by
    obtain rfl := List.mem_singleton.mp hchallenge
    exact ⟨basicCorp_plain, by decide⟩

theorem tokens_survive_codec_sample :
    betweenBasics.headers =
        [(proxyAuthenticate, "Basic realm=corp,\t nTLM AQID  ,Basic realm=corp".toList)] ∧
      negotiateOffer standardBase64 betweenBasics.headers = .challenge .ntlm [1, 2, 3] :=
  ⟨by decide +kernel, (tokens_survive_codec standardBase64 rfl .ntlm [1, 2, 3]).2 betweenBasics⟩

end Zicade.Upstream
