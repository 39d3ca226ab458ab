import Zicade.Auth.Base64
import Zicade.Upstream.AuthState

/-! # Challenge lists

The syntax of `Proxy-Authenticate` as RFC 9110 defines it: challenges separated
by commas, each a scheme with a token or with parameters that are separated by
commas too, and whose quoted values may hold commas of their own. The proxy
splits a value at every comma and keeps the pieces that start with a bare token.
That reads a list as it is defined exactly when no later piece of a challenge
looks like the start of one.
-/

namespace Zicade.Upstream

open Zicade.Foundation Zicade.Auth

/-! ## Syntax -/

/-- A character of optional whitespace. -/
inductive Blank
  | space
  | tab
  deriving DecidableEq, Repr

def Blank.char : Blank → Char
  | .space => ' '
  | .tab => '\t'

abbrev Pad := List Blank

def Pad.render (pad : Pad) : Text := pad.map Blank.char

structure Token where
  text : Text
  ne_nil : text ≠ []
  tchar : ∀ c ∈ text, isTchar c = true

/-- A character that may be quoted: tab, space, visible, or beyond ASCII. -/
def isQuotable (c : Char) : Bool := c == '\t' || (32 ≤ c.toNat && c.toNat != 127)

inductive QuotedChar
  | plain (c : Char) (hc : isQuotable c = true ∧ c ≠ '"' ∧ c ≠ '\\')
  | escaped (c : Char) (hc : isQuotable c = true)

def QuotedChar.render : QuotedChar → Text
  | .plain c _ => [c]
  | .escaped c _ => ['\\', c]

inductive ParamValue
  | token (token : Token)
  | quoted (chars : List QuotedChar)

def ParamValue.render : ParamValue → Text
  | .token word => word.text
  | .quoted chars => '"' :: (chars.flatMap QuotedChar.render ++ ['"'])

/-- `name = value`, with whitespace allowed on both sides of the sign. -/
structure AuthParam where
  name : Token
  beforeEq : Pad
  afterEq : Pad
  value : ParamValue

def AuthParam.render (param : AuthParam) : Text :=
  param.name.text ++ param.beforeEq.render ++ '=' :: (param.afterEq.render ++ param.value.render)

/-- One place of a comma-separated list, which may be left empty. -/
structure ListItem (α : Type) where
  before : Pad
  item : Option α
  after : Pad

def ListItem.render {α : Type} (render : α → Text) (item : ListItem α) : Text :=
  item.before.render ++ (item.item.map render).getD [] ++ item.after.render

/-- A list of at least one place. -/
structure Listed (α : Type) where
  first : ListItem α
  rest : List (ListItem α)

namespace Listed

variable {α : Type}

def render (render : α → Text) (list : Listed α) : Text :=
  list.first.render render ++ list.rest.flatMap fun item => ',' :: item.render render

/-- The items that are there. -/
def items (list : Listed α) : List α :=
  list.first.item.toList ++ list.rest.flatMap fun item => item.item.toList

/-- The items that stand after a comma. -/
def laterItems (list : Listed α) : List α := list.rest.flatMap fun item => item.item.toList

end Listed

def isToken68Char (c : Char) : Bool :=
  ('a' ≤ c && c ≤ 'z') || ('A' ≤ c && c ≤ 'Z') || ('0' ≤ c && c ≤ '9') ||
    "-._~+/".toList.contains c

structure Token68 where
  text : Text
  padding : Nat
  ne_nil : text ≠ []
  chars : ∀ c ∈ text, isToken68Char c = true

def Token68.render (token : Token68) : Text := token.text ++ List.replicate token.padding '='

/-- What follows the scheme, after one or more spaces. -/
inductive ChallengeBody
  | bare
  | token68 (moreSpaces : Nat) (token : Token68)
  | params (moreSpaces : Nat) (params : Listed AuthParam)

def spaces (more : Nat) : Text := List.replicate (more + 1) ' '

def ChallengeBody.render : ChallengeBody → Text
  | .bare => []
  | .token68 more word => spaces more ++ word.render
  | .params more list => spaces more ++ list.render AuthParam.render

structure Challenge where
  scheme : Token
  body : ChallengeBody

namespace Challenge

def render (challenge : Challenge) : Text := challenge.scheme.text ++ challenge.body.render

/-- The start of a challenge: its text up to its first comma. -/
def start (challenge : Challenge) : Text := trim (challenge.render.takeWhile (· != ','))

end Challenge

/-- A header field; only `Proxy-Authenticate` has a syntax of interest. -/
inductive AuthHeader
  | challenges (list : Listed Challenge)
  | other (name value : Text) (hname : name ≠ proxyAuthenticate)

def AuthHeader.render : AuthHeader → Text × Text
  | .challenges list => (proxyAuthenticate, list.render Challenge.render)
  | .other name value _ => (name, value)

/-- The challenges of the header fields, in order. -/
def listedChallenges (headers : List AuthHeader) : List Challenge :=
  headers.flatMap fun header =>
    match header with
    | .challenges list => list.items
    | .other _ _ _ => []

/-! ## The condition -/

/-- No comma inside a quoted value is followed by what looks like the start of a
challenge: a bare token up to the next whitespace. -/
def AuthParam.Quiet (param : AuthParam) : Prop :=
  ∀ segment ∈ (param.value.render.splitOn ',').tail, startsChallenge segment = false

/-- Quoted values are quiet, and no parameter after a comma has whitespace
before its sign. -/
def Challenge.Plain (challenge : Challenge) : Prop :=
  match challenge.body with
  | .bare => True
  | .token68 _ _ => True
  | .params _ list => (∀ param ∈ list.items, param.Quiet) ∧
      ∀ param ∈ list.laterItems, param.beforeEq = []

/-! ## Pieces of a text -/

/-- The pieces of a value that are taken for starts of challenges. -/
def starts (value : Text) : List Text := (valuePieces value).filter startsChallenge

/-- Those after the first comma. -/
def laterStarts (value : Text) : List Text := (valuePieces value).tail.filter startsChallenge

theorem startsChallenge_trim (piece : Text) :
    startsChallenge (trim piece) = startsChallenge piece := by
  simp only [startsChallenge, schemeName, firstWord_trim]

theorem valuePieces_of_not_mem {text : Text} (hcomma : ',' ∉ text) :
    valuePieces text = [trim text] := by
  rw [valuePieces, List.splitOn_eq_singleton hcomma, List.map_singleton]

theorem valuePieces_comma {front : Text} (back : Text) (hcomma : ',' ∉ front) :
    valuePieces (front ++ ',' :: back) = trim front :: valuePieces back := by
  rw [valuePieces, List.splitOn_append_cons_self_of_not_mem hcomma, List.map_cons, valuePieces]

theorem laterStarts_of_not_mem {text : Text} (hcomma : ',' ∉ text) : laterStarts text = [] := by
  rw [laterStarts, valuePieces_of_not_mem hcomma]
  rfl

theorem laterStarts_comma {front : Text} (back : Text) (hcomma : ',' ∉ front) :
    laterStarts (front ++ ',' :: back) = starts back := by
  rw [laterStarts, valuePieces_comma back hcomma]
  rfl

theorem starts_comma (left right : Text) :
    starts (left ++ ',' :: right) = starts left ++ starts right := by
  rw [starts, valuePieces, List.splitOn_append_cons_self, List.map_append, List.filter_append]
  rfl

/-- A text without commas, or its first comma. -/
theorem comma_cases (text : Text) :
    ',' ∉ text ∨ ∃ front back, text = front ++ ',' :: back ∧ ',' ∉ front := by
  by_cases hmem : ',' ∈ text
  · exact .inr (List.eq_append_cons_of_mem hmem)
  · exact .inl hmem

theorem takeWhile_comma {front : Text} (back : Text) (hcomma : ',' ∉ front) :
    (front ++ ',' :: back).takeWhile (· != ',') = front := by
  rw [List.takeWhile_append_of_pos, List.takeWhile_cons_of_neg (by simp), List.append_nil]
  intro c hc
  simpa using ne_of_mem_of_not_mem hc hcomma

/-- The text up to the first comma is one piece; the others follow. -/
theorem starts_eq (text : Text) :
    starts text = (if startsChallenge (text.takeWhile (· != ',')) then
      [trim (text.takeWhile (· != ','))] else []) ++ laterStarts text := by
  rcases comma_cases text with hcomma | ⟨front, back, rfl, hcomma⟩
  · have hall : text.takeWhile (· != ',') = text := by
      rw [List.takeWhile_eq_self_iff]
      intro c hc
      simpa using ne_of_mem_of_not_mem hc hcomma
    rw [laterStarts_of_not_mem hcomma, hall, starts, valuePieces_of_not_mem hcomma,
      List.filter_cons, startsChallenge_trim]
    simp
  · rw [laterStarts_comma back hcomma, takeWhile_comma back hcomma, starts,
      valuePieces_comma back hcomma, List.filter_cons, startsChallenge_trim]
    split <;> rfl

theorem laterStarts_append_left {before : Text} (text : Text) (hcomma : ',' ∉ before) :
    laterStarts (before ++ text) = laterStarts text := by
  rcases comma_cases text with hnone | ⟨front, back, rfl, hfront⟩
  · rw [laterStarts_of_not_mem hnone, laterStarts_of_not_mem (by simp [hcomma, hnone])]
  · rw [← List.append_assoc, laterStarts_comma back hfront,
      laterStarts_comma back (by simp [hcomma, hfront])]

theorem laterStarts_append_comma (left right : Text) :
    laterStarts (left ++ ',' :: right) = laterStarts left ++ starts right := by
  rcases comma_cases left with hnone | ⟨front, back, rfl, hfront⟩
  · rw [laterStarts_comma right hnone, laterStarts_of_not_mem hnone, List.nil_append]
  · rw [List.append_assoc, List.cons_append, laterStarts_comma _ hfront, starts_comma,
      laterStarts_comma back hfront]

/-- Every comma-separated part contributes its own starts. -/
theorem starts_flatMap {α : Type} (first : Text) (render : α → Text) (rest : List α) :
    starts (first ++ rest.flatMap fun item => ',' :: render item) =
      starts first ++ rest.flatMap fun item => starts (render item) := by
  induction rest generalizing first with
  | nil => simp
  | cons item rest ih =>
      rw [List.flatMap_cons, List.cons_append, starts_comma, ih, List.flatMap_cons]

theorem laterStarts_flatMap {α : Type} (first : Text) (render : α → Text) (rest : List α) :
    laterStarts (first ++ rest.flatMap fun item => ',' :: render item) =
      laterStarts first ++ rest.flatMap fun item => starts (render item) := by
  cases rest with
  | nil => simp
  | cons item rest =>
      rw [List.flatMap_cons, List.cons_append, laterStarts_append_comma, starts_flatMap,
        List.flatMap_cons]

/-! ## Whitespace around a text -/

theorem Pad.render_whitespace (pad : Pad) : ∀ c ∈ pad.render, isWhitespace c := by
  intro c hc
  obtain ⟨blank, -, rfl⟩ := List.mem_map.mp hc
  cases blank <;> rfl

theorem Pad.comma_not_mem (pad : Pad) : ',' ∉ pad.render := by
  intro hmem
  have := pad.render_whitespace _ hmem
  revert this
  decide

/-- Whitespace before or after a text does not change its pieces. -/
theorem valuePieces_pad (before after : Pad) (text : Text) :
    valuePieces (before.render ++ text ++ after.render) = valuePieces text := by
  -- strengthened over the text of the first piece read so far
  suffices h : ∀ (before : Pad) (front : Text), ',' ∉ front →
      valuePieces (before.render ++ (front ++ text) ++ after.render) =
        valuePieces (front ++ text) by
    apply h before []
    simp
  induction text with
  | nil =>
      intro before front hfront
      rw [List.append_nil, valuePieces_of_not_mem hfront, valuePieces_of_not_mem,
        trim_append_right _ after.render_whitespace, trim_append_left _ before.render_whitespace]
      simp [before.comma_not_mem, after.comma_not_mem, hfront]
  | cons c rest ih =>
      intro before front hfront
      by_cases hc : c = ','
      · subst hc
        have hrest : valuePieces (rest ++ after.render) = valuePieces rest := by
          apply ih [] []
          simp
        have hassoc : before.render ++ (front ++ ',' :: rest) ++ after.render =
            (before.render ++ front) ++ ',' :: (rest ++ after.render) := by
          simp
        rw [hassoc, valuePieces_comma, valuePieces_comma _ hfront, hrest,
          trim_append_left _ before.render_whitespace]
        simp [before.comma_not_mem, hfront]
      · have hmore : ',' ∉ front ++ [c] := by
          simp [hfront, Ne.symm hc]
        have := ih before (front ++ [c]) hmore
        simpa using this

theorem starts_pad (before after : Pad) (text : Text) :
    starts (before.render ++ text ++ after.render) = starts text := by
  rw [starts, starts, valuePieces_pad]

theorem laterStarts_pad (before after : Pad) (text : Text) :
    laterStarts (before.render ++ text ++ after.render) = laterStarts text := by
  rw [laterStarts, laterStarts, valuePieces_pad]

section

variable {α : Type} (render : α → Text)

theorem ListItem.starts_render (item : ListItem α) :
    starts (item.render render) = item.item.toList.flatMap fun a => starts (render a) := by
  rw [ListItem.render, starts_pad]
  cases item.item with
  | none => rfl
  | some a => simp

theorem ListItem.laterStarts_render (item : ListItem α) :
    laterStarts (item.render render) =
      item.item.toList.flatMap fun a => laterStarts (render a) := by
  rw [ListItem.render, laterStarts_pad]
  cases item.item with
  | none => rfl
  | some a => simp

theorem Listed.starts_render (list : Listed α) :
    starts (list.render render) = list.items.flatMap fun a => starts (render a) := by
  rw [Listed.render, starts_flatMap, Listed.items, List.flatMap_append, List.flatMap_assoc]
  simp only [ListItem.starts_render]

theorem Listed.laterStarts_render (list : Listed α) :
    laterStarts (list.render render) =
      (list.first.item.toList.flatMap fun a => laterStarts (render a)) ++
        list.laterItems.flatMap fun a => starts (render a) := by
  rw [Listed.render, laterStarts_flatMap, Listed.laterItems, List.flatMap_assoc]
  simp only [ListItem.starts_render, ListItem.laterStarts_render]

end

/-! ## Challenges and their parameters -/

namespace Token

theorem not_whitespace (token : Token) : ∀ c ∈ token.text, isWhitespace c = false :=
  fun c hc => isTchar_not_whitespace (token.tchar c hc)

theorem comma_not_mem (token : Token) : ',' ∉ token.text := by
  intro hmem
  have := token.tchar _ hmem
  revert this
  decide

/-- The first word of a text that opens with a token starts with the token. -/
theorem firstWord_append (token : Token) (rest : Text) :
    firstWord (token.text ++ rest) =
      token.text ++ rest.takeWhile (fun c => !isWhitespace c) := by
  have hdrop : (token.text ++ rest).dropWhile isWhitespace = token.text ++ rest := by
    obtain ⟨c, tail, htext⟩ := List.exists_cons_of_ne_nil token.ne_nil
    have hc := token.not_whitespace c (by simp [htext])
    rw [htext, List.cons_append, List.dropWhile_cons_of_neg (by simp [hc])]
  rw [firstWord_eq, hdrop, List.takeWhile_append_of_pos]
  intro c hc
  simp [token.not_whitespace c hc]

theorem schemeName_append (token : Token) {rest : Text}
    (hrest : ∀ c, rest.head? = some c → isWhitespace c) :
    schemeName (token.text ++ rest) = token.text := by
  rw [schemeName, firstWord_append]
  cases rest with
  | nil => simp
  | cons c tail =>
      rw [List.takeWhile_cons_of_neg (by simp [hrest c rfl]), List.append_nil]

/-- A token followed by whitespace or nothing is taken for a challenge. -/
theorem startsChallenge_append (token : Token) {rest : Text}
    (hrest : ∀ c, rest.head? = some c → isWhitespace c) :
    startsChallenge (token.text ++ rest) = true := by
  rw [startsChallenge, token.schemeName_append hrest]
  simp [token.ne_nil, List.all_eq_true.mpr token.tchar]

/-- A token followed by `=` is not. -/
theorem startsChallenge_append_sign (token : Token) (rest : Text) :
    startsChallenge (token.text ++ '=' :: rest) = false := by
  have hall : (schemeName (token.text ++ '=' :: rest)).all isTchar = false := by
    rw [schemeName, firstWord_append, List.takeWhile_cons_of_pos (by decide), List.all_append,
      List.all_cons]
    have hsign : isTchar '=' = false := by decide
    simp [hsign]
  rw [startsChallenge, hall, Bool.and_false]

end Token

theorem takeWhile_head {p : Char → Bool} {text : Text} {c : Char}
    (hc : (text.takeWhile p).head? = some c) : text.head? = some c := by
  cases text with
  | nil => simp at hc
  | cons d rest =>
      by_cases hd : p d
      · simpa [List.takeWhile_cons_of_pos hd] using hc
      · simp [List.takeWhile_cons_of_neg hd] at hc

namespace AuthParam

/-- What stands before the value. -/
def front (param : AuthParam) : Text :=
  param.name.text ++ param.beforeEq.render ++ '=' :: param.afterEq.render

theorem render_eq (param : AuthParam) : param.render = param.front ++ param.value.render := by
  simp [render, front]

theorem front_comma_not_mem (param : AuthParam) : ',' ∉ param.front := by
  simp [front, param.name.comma_not_mem, param.beforeEq.comma_not_mem,
    param.afterEq.comma_not_mem]

/-- A parameter is taken for a challenge by whitespace before its sign. -/
theorem startsChallenge_front (param : AuthParam) (rest : Text) :
    startsChallenge (param.front ++ rest) = !param.beforeEq.isEmpty := by
  cases hpad : param.beforeEq with
  | nil =>
      have hsign : param.front ++ rest =
          param.name.text ++ '=' :: (param.afterEq.render ++ rest) := by
        simp [front, hpad, Pad.render]
      rw [hsign, param.name.startsChallenge_append_sign]
      rfl
  | cons blank pad =>
      have hblank : param.front ++ rest = param.name.text ++
          blank.char :: (Pad.render pad ++ '=' :: (param.afterEq.render ++ rest)) := by
        simp [front, hpad, Pad.render]
      rw [hblank, param.name.startsChallenge_append]
      · rfl
      · intro c hc
        obtain rfl : blank.char = c := by simpa using hc
        cases blank <;> rfl

theorem laterStarts_render (param : AuthParam) :
    laterStarts param.render = laterStarts param.value.render := by
  rw [param.render_eq, laterStarts_append_left _ param.front_comma_not_mem]

theorem laterStarts_eq_nil_iff (param : AuthParam) :
    laterStarts param.render = [] ↔ param.Quiet := by
  rw [laterStarts_render, laterStarts, valuePieces, ← List.map_tail, List.filter_eq_nil_iff,
    Quiet]
  simp only [List.forall_mem_map, startsChallenge_trim, Bool.not_eq_true]

theorem starts_eq_nil_iff (param : AuthParam) :
    starts param.render = [] ↔ param.beforeEq = [] ∧ param.Quiet := by
  have hfirst : startsChallenge (param.render.takeWhile (· != ',')) =
      !param.beforeEq.isEmpty := by
    rw [param.render_eq, List.takeWhile_append_of_pos, startsChallenge_front]
    intro c hc
    simpa using ne_of_mem_of_not_mem hc param.front_comma_not_mem
  rw [starts_eq, hfirst, List.append_eq_nil_iff, laterStarts_eq_nil_iff]
  cases param.beforeEq <;> simp

end AuthParam

theorem Token68.comma_not_mem (token : Token68) : ',' ∉ token.render := by
  intro hmem
  rcases List.mem_append.mp hmem with htext | hpadding
  · have := token.chars _ htext
    revert this
    decide
  · have := List.eq_of_mem_replicate hpadding
    revert this
    decide

theorem comma_not_mem_spaces (more : Nat) : ',' ∉ spaces more := by
  intro hmem
  have := List.eq_of_mem_replicate hmem
  revert this
  decide

/-- After the scheme comes a space, or nothing. -/
theorem ChallengeBody.render_head (body : ChallengeBody) {c : Char}
    (hc : body.render.head? = some c) : isWhitespace c := by
  have hspace : ∀ (more : Nat) (rest : Text),
      (spaces more ++ rest).head? = some c → isWhitespace c := by
    intro more rest hhead
    obtain rfl : ' ' = c := by simpa [spaces, List.replicate_succ] using hhead
    rfl
  cases body with
  | bare => simp [render] at hc
  | token68 more token => exact hspace _ _ hc
  | params more list => exact hspace _ _ hc

namespace Challenge

theorem takeWhile_render (challenge : Challenge) :
    challenge.render.takeWhile (· != ',') =
      challenge.scheme.text ++ challenge.body.render.takeWhile (· != ',') := by
  rw [render, List.takeWhile_append_of_pos]
  intro c hc
  simpa using ne_of_mem_of_not_mem hc challenge.scheme.comma_not_mem

/-- A challenge is taken for one, and so is what its later pieces start. -/
theorem starts_render (challenge : Challenge) :
    starts challenge.render = challenge.start :: laterStarts challenge.body.render := by
  have hscheme : startsChallenge (challenge.render.takeWhile (· != ',')) = true := by
    rw [takeWhile_render, challenge.scheme.startsChallenge_append]
    intro c hc
    exact challenge.body.render_head (takeWhile_head hc)
  rw [starts_eq, if_pos hscheme, ← start, render,
    laterStarts_append_left _ challenge.scheme.comma_not_mem]
  rfl

theorem schemeName_start (challenge : Challenge) :
    schemeName challenge.start = challenge.scheme.text := by
  rw [start, schemeName, firstWord_trim, takeWhile_render]
  apply challenge.scheme.schemeName_append
  intro c hc
  exact challenge.body.render_head (takeWhile_head hc)

/-- Nothing of a challenge is taken for another one exactly when it is plain. -/
theorem laterStarts_eq_nil_iff (challenge : Challenge) :
    laterStarts challenge.body.render = [] ↔ challenge.Plain := by
  rw [Plain]
  cases challenge.body with
  | bare => exact ⟨fun _ => trivial, fun _ => rfl⟩
  | token68 more token =>
      have hnone : laterStarts (spaces more ++ token.render) = [] := by
        apply laterStarts_of_not_mem
        simp [comma_not_mem_spaces, token.comma_not_mem]
      exact ⟨fun _ => trivial, fun _ => hnone⟩
  | params more list =>
      rw [ChallengeBody.render, laterStarts_append_left _ (comma_not_mem_spaces more),
        list.laterStarts_render, List.append_eq_nil_iff]
      simp only [List.flatMap_eq_nil_iff, AuthParam.laterStarts_eq_nil_iff,
        AuthParam.starts_eq_nil_iff]
      constructor
      · rintro ⟨hfirst, hlater⟩
        refine ⟨fun param hmem => ?_, fun param hmem => (hlater param hmem).1⟩
        rcases List.mem_append.mp hmem with hmem | hmem
        · exact hfirst param hmem
        · exact (hlater param hmem).2
      · rintro ⟨hquiet, hpad⟩
        refine ⟨fun param hmem => hquiet param (List.mem_append_left _ hmem), fun param hmem =>
          ⟨hpad param hmem, hquiet param (List.mem_append_right _ hmem)⟩⟩

end Challenge

/-! ## What the driver reads of a list -/

/-- The driver sees the starts of all challenges of the header lists, and what
each contributes beyond. -/
theorem challenges_render (headers : List AuthHeader) :
    challenges (headers.map AuthHeader.render) = (listedChallenges headers).flatMap
      fun challenge => challenge.start :: laterStarts challenge.body.render := by
  have hheader : ∀ header : AuthHeader, challenges [header.render] =
      (listedChallenges [header]).flatMap fun challenge => starts challenge.render := by
    intro header
    cases header with
    | challenges list =>
        have := list.starts_render Challenge.render
        simpa [challenges, starts, listedChallenges, AuthHeader.render] using this
    | other name value hname =>
        simp [challenges, listedChallenges, AuthHeader.render, hname]
  have hall : challenges (headers.map AuthHeader.render) =
      headers.flatMap fun header => challenges [header.render] := by
    induction headers with
    | nil => rfl
    | cons header rest ih =>
        have hcons : challenges ((header :: rest).map AuthHeader.render) =
            challenges [header.render] ++ challenges (rest.map AuthHeader.render) := by
          rw [challenges, challenges, challenges, ← List.filter_append, ← List.flatMap_append,
            ← List.filter_append]
          rfl
        rw [hcons, ih, List.flatMap_cons]
  rw [hall, listedChallenges, List.flatMap_assoc]
  simp only [hheader, listedChallenges, List.flatMap_singleton, Challenge.starts_render]

section

variable (base64 : Base64)

/-- The scheme of a challenge, when it is one the proxy can answer. -/
def Challenge.authScheme (challenge : Challenge) : Option AuthScheme :=
  schemeOfKeyword challenge.scheme.text

/-- What the first challenge of a scheme the proxy can answer offers. -/
def firstOffer (list : List Challenge) : NegotiateOffer :=
  match list.find? fun challenge => challenge.authScheme.isSome with
  | some challenge => parseProxyAuthenticate base64 challenge.start
  | none => .notOffered

/-- The driver reads header lists the way their syntax is defined. -/
structure ReadAsDefined (headers : List AuthHeader) : Prop where
  starts : challenges (headers.map AuthHeader.render) =
    (listedChallenges headers).map Challenge.start
  schemes : (challenges (headers.map AuthHeader.render)).map schemeName =
    (listedChallenges headers).map fun challenge => challenge.scheme.text
  offer : negotiateOffer base64 (headers.map AuthHeader.render) =
    firstOffer base64 (listedChallenges headers)
  refused : (∃ err, firstLegScheme (headers.map AuthHeader.render)
      (negotiateOffer base64 (headers.map AuthHeader.render)) = .error err) ↔
    listedChallenges headers ≠ [] ∧
      ∀ challenge ∈ listedChallenges headers, challenge.authScheme = none

theorem parse_start_scheme (challenge : Challenge) :
    (parseProxyAuthenticate base64 challenge.start).scheme = challenge.authScheme := by
  rw [parseProxyAuthenticate_scheme, splitWhitespaceOnce_trim_fst, ← schemeName,
    challenge.schemeName_start, Challenge.authScheme]

theorem parse_start_offers (challenge : Challenge) :
    (parseProxyAuthenticate base64 challenge.start != .notOffered) =
      challenge.authScheme.isSome := by
  rw [← parse_start_scheme base64]
  cases parseProxyAuthenticate base64 challenge.start <;> rfl

theorem firstOffer_scheme_eq_none_iff (list : List Challenge) :
    (firstOffer base64 list).scheme = none ↔
      ∀ challenge ∈ list, challenge.authScheme = none := by
  unfold firstOffer
  split
  next challenge hfind =>
    rw [parse_start_scheme]
    have hsome := List.find?_some hfind
    constructor
    · intro hnone
      simp [hnone] at hsome
    · intro hall
      exact hall challenge (List.mem_of_find?_eq_some hfind)
  next hfind =>
    rw [List.find?_eq_none] at hfind
    simpa [NegotiateOffer.scheme] using hfind

/-- A first leg fails exactly when something is offered that cannot be answered. -/
theorem firstLegScheme_error_iff (headers : Headers) (offer : NegotiateOffer) :
    (∃ err, firstLegScheme headers offer = .error err) ↔
      challenges headers ≠ [] ∧ offer.scheme = none := by
  unfold firstLegScheme
  cases offer.scheme with
  | some advertised => simp
  | none => cases challenges headers <;> simp

/-- Seeing the starts of all challenges is enough to read a list as defined. -/
theorem ReadAsDefined.of_starts {headers : List AuthHeader}
    (hstarts : challenges (headers.map AuthHeader.render) =
      (listedChallenges headers).map Challenge.start) : ReadAsDefined base64 headers := by
  have hoffer : negotiateOffer base64 (headers.map AuthHeader.render) =
      firstOffer base64 (listedChallenges headers) := by
    rw [negotiateOffer, hstarts, List.map_map, List.find?_map, firstOffer]
    have hpred : ((fun offer => offer != .notOffered) ∘
        parseProxyAuthenticate base64 ∘ Challenge.start) =
        fun challenge => challenge.authScheme.isSome := by
      funext challenge
      rw [Function.comp_apply, Function.comp_apply, parse_start_offers]
    rw [hpred]
    cases (listedChallenges headers).find? fun challenge => challenge.authScheme.isSome with
    | none => simp
    | some challenge => simp
  refine ⟨hstarts, ?_, hoffer, ?_⟩
  · rw [hstarts, List.map_map]
    apply List.map_congr_left
    intro challenge _
    exact challenge.schemeName_start
  · rw [firstLegScheme_error_iff, hoffer, firstOffer_scheme_eq_none_iff, hstarts, Ne,
      List.map_eq_nil_iff]

/-- Nothing stands between the heads of a list of lists exactly when all its
tails are empty. -/
theorem flatMap_cons_eq_map_iff {α β : Type} (head : α → β) (tail : α → List β) (list : List α) :
    (list.flatMap fun a => head a :: tail a) = list.map head ↔ ∀ a ∈ list, tail a = [] := by
  constructor
  · intro heq
    have hlength := congrArg List.length heq
    rw [List.length_flatMap, List.length_map] at hlength
    -- the heads alone make up the length, so no tail adds to it
    clear heq
    have hle : ∀ rest : List α,
        rest.length ≤ (rest.map fun a => (head a :: tail a).length).sum := by
      intro rest
      induction rest with
      | nil => simp
      | cons a rest ih =>
          simp only [List.map_cons, List.sum_cons, List.length_cons] at ih ⊢
          omega
    induction list with
    | nil => simp
    | cons a rest ih =>
        have := hle rest
        simp only [List.map_cons, List.sum_cons, List.length_cons] at hlength this ih
        intro b hb
        rcases List.mem_cons.mp hb with rfl | hb
        · apply List.eq_nil_of_length_eq_zero
          omega
        · exact ih (by omega) b hb
  · intro hnil
    induction list with
    | nil => rfl
    | cons a rest ih =>
        rw [List.flatMap_cons, hnil a List.mem_cons_self, List.map_cons,
          ih fun b hb => hnil b (List.mem_cons_of_mem a hb)]
        rfl

/-- A list is read as it is defined exactly when its challenges are plain. -/
theorem readAsDefined_iff (headers : List AuthHeader) :
    ReadAsDefined base64 headers ↔ ∀ challenge ∈ listedChallenges headers, challenge.Plain := by
  have hplain : challenges (headers.map AuthHeader.render) =
      (listedChallenges headers).map Challenge.start ↔
        ∀ challenge ∈ listedChallenges headers, challenge.Plain := by
    rw [challenges_render, flatMap_cons_eq_map_iff]
    simp only [Challenge.laterStarts_eq_nil_iff]
  rw [← hplain]
  exact ⟨fun hread => hread.starts, ReadAsDefined.of_starts base64⟩

end

/-! ## A realm that names a scheme -/

def basicToken : Token := ⟨"Basic".toList, by decide, by decide⟩

def realmToken : Token := ⟨"realm".toList, by decide, by decide⟩

/-- The quoted text `a, NTLM b`. -/
def namingRealm : List QuotedChar :=
  [.plain 'a' (by decide), .plain ',' (by decide), .plain ' ' (by decide),
    .plain 'N' (by decide), .plain 'T' (by decide), .plain 'L' (by decide),
    .plain 'M' (by decide), .plain ' ' (by decide), .plain 'b' (by decide)]

/-- `Basic realm="a, NTLM b"`. -/
def namingHeader : AuthHeader :=
  .challenges ⟨⟨[], some ⟨basicToken, .params 0
    ⟨⟨[], some ⟨realmToken, [], [], .quoted namingRealm⟩, []⟩, []⟩⟩, []⟩, []⟩

/-- Only Basic is offered, but the text of its realm is taken for an offer of NTLM. -/
theorem quotedText_takenForOffer :
    (listedChallenges [namingHeader]).map (fun challenge => challenge.authScheme) = [none] ∧
      negotiateOffer standardBase64 ([namingHeader].map AuthHeader.render) = .offered .ntlm ∧
      ¬ ReadAsDefined standardBase64 [namingHeader] := by
  refine ⟨by decide +kernel, by decide +kernel, ?_⟩
  intro hread
  have hschemes := hread.schemes
  revert hschemes
  decide +kernel

end Zicade.Upstream
