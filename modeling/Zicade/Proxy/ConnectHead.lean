import Zicade.Auth.Base64
import Zicade.Proxy.Target
import Zicade.Upstream.Agreement
import Zicade.Upstream.RequestHead

/-! # The head of a CONNECT

The head is put together from the target, the credentials and fixed text, and none of them
is escaped. None needs to be: a target has no byte that could end a line or a word, and
credentials are base64 after a scheme.
-/

namespace Zicade.Proxy

open Zicade.Foundation Zicade.Auth Zicade.Upstream Zicade.App

/-! ## What a head is put together from -/

/-- `char::is_control`: the Unicode general category `Cc`. -/
def isControl (c : Char) : Bool := c.toNat < 32 || (127 ≤ c.toNat && c.toNat ≤ 159)

/-- An authority holds no whitespace and no control characters, and its host is cut out of
it. -/
structure AuthorityCrate.Plain (uri : AuthorityCrate) : Prop where
  authority : ∀ text authority, uri.authority text = some authority →
    ∀ c ∈ authority, isWhitespace c = false ∧ isControl c = false
  host : ∀ text authority, uri.authority text = some authority → uri.host authority ⊆ authority

/-- What the proxy makes an auth header of. -/
inductive Credentials
  | none
  | basic (username password : Text)
  | token (scheme : AuthScheme) (bytes : Bytes)

variable (base64 : Base64)

def Credentials.header : Credentials → Option Text
  | .none => Option.none
  | .basic username password => some (buildBasicAuthorization base64 username password)
  | .token scheme bytes => some (buildProxyAuthorization base64 scheme bytes)

/-! ## Values -/

/-- A value that stands in a field line as it is. -/
structure PlainValue (value : Text) : Prop where
  valid : ValidValue value
  head : ∀ b, (asBytes value).head? = some b → isBlankByte b = false

theorem plainValue_header {credentials : Credentials} {value : Text}
    (hvalue : credentials.header base64 = some value) : PlainValue value := by
  cases credentials with
  | none => cases hvalue
  | basic username password =>
      obtain rfl := Option.some.inj hvalue
      refine ⟨ValidValue.append (by decide) (validValue_encode base64 _), ?_⟩
      intro b hb
      have hhead : (asBytes (buildBasicAuthorization base64 username password)).head? = some 66 :=
        rfl
      rw [hhead] at hb
      obtain rfl := Option.some.inj hb
      rfl
  | token scheme bytes =>
      obtain rfl := Option.some.inj hvalue
      refine ⟨validValue_buildProxyAuthorization base64 scheme bytes, ?_⟩
      intro b hb
      have hhead : (asBytes (buildProxyAuthorization base64 scheme bytes)).head? = some 78 := by
        cases scheme <;> rfl
      rw [hhead] at hb
      obtain rfl := Option.some.inj hb
      rfl

/-! ## Targets -/

/-- A character that ends neither a word nor a line. -/
theorem visible_asBytes {text : Text}
    (hplain : ∀ c ∈ text, isWhitespace c = false ∧ isControl c = false) :
    ∀ b ∈ asBytes text, isVisibleByte b = true := by
  intro b hb
  obtain ⟨c, hc, hb⟩ := List.mem_flatMap.mp hb
  obtain ⟨hspace, hcontrol⟩ := hplain c hc
  simp only [isWhitespace, isControl, Bool.or_eq_false_iff, Bool.and_eq_false_iff,
    decide_eq_false_iff_not, beq_eq_false_iff_ne] at hspace hcontrol
  simp only [isVisibleByte, Bool.and_eq_true, decide_eq_true_eq, bne_iff_ne]
  have hbyte := toNat_of_mem_utf8EncodeChar hb
  omega

theorem isFieldByte_of_visible {b : UInt8} (hb : isVisibleByte b = true) :
    isFieldByte b = true := by
  simp only [isVisibleByte, isFieldByte, Bool.and_eq_true, Bool.or_eq_true, decide_eq_true_eq,
    bne_iff_ne, beq_iff_eq] at hb ⊢
  omega

theorem isBlankByte_of_visible {b : UInt8} (hb : isVisibleByte b = true) :
    isBlankByte b = false := by
  cases hblank : isBlankByte b with
  | false => rfl
  | true =>
      simp only [isBlankByte, Bool.or_eq_true, beq_iff_eq] at hblank
      rcases hblank with rfl | rfl <;> exact absurd hb (by decide)

/-- A target that can stand in the request line and in the `Host`. -/
structure Target where
  text : Text
  nonempty : text ≠ []
  plain : ∀ c ∈ text, isWhitespace c = false ∧ isControl c = false

namespace Target

theorem asBytes_ne_nil (target : Target) : asBytes target.text ≠ [] := by
  obtain ⟨c, rest, htext⟩ := List.exists_cons_of_ne_nil target.nonempty
  rw [htext, asBytes, List.flatMap_cons]
  exact List.append_ne_nil_of_left_ne_nil String.utf8EncodeChar_ne_nil _

def word (target : Target) : Word where
  bytes := asBytes target.text
  nonempty := target.asBytes_ne_nil
  visible := visible_asBytes target.plain

theorem plainValue (target : Target) : PlainValue target.text where
  valid := List.all_eq_true.mpr fun b hb =>
    isFieldByte_of_visible (visible_asBytes target.plain b hb)
  head := fun b hb =>
    isBlankByte_of_visible (visible_asBytes target.plain b (List.mem_of_mem_head? hb))

end Target

/-- Every target read off a URI is one. -/
theorem exists_target {uri : AuthorityCrate} (hplain : uri.Plain) {text target : Text}
    (htarget : authorityTarget uri text = some target) : ∃ known : Target, known.text = target := by
  obtain ⟨authority, hauthority, rfl⟩ := Option.map_eq_some_iff.mp htarget
  have hchars : ∀ c ∈ hostPort (uri.host authority) ((uri.portU16 authority).getD 80),
      isWhitespace c = false ∧ isControl c = false := by
    intro c hc
    rcases List.mem_append.mp hc with hc | hc
    · exact hplain.authority text authority hauthority c (hplain.host text authority hauthority hc)
    · rcases List.mem_cons.mp hc with rfl | hc
      · decide
      · have hrange := mem_digits_range (digitsValue_toDigits (by decide) (by decide) _) hc
        refine ⟨isWhitespace_of_alphanumeric hrange, ?_⟩
        simp only [isControl, Bool.or_eq_false_iff, Bool.and_eq_false_iff, decide_eq_false_iff_not]
        omega
  exact ⟨⟨_, by simp [hostPort], hchars⟩, rfl⟩

/-! ## The head -/

/-- A field with this name and value, a space between them. -/
def fieldOf (name : Text) (hname : name ≠ [] ∧ ∀ c ∈ name, isTchar c) (value : Text)
    (hvalue : PlainValue value) : Field where
  name
  value := 32 :: asBytes value
  name_ne_nil := hname.1
  name_tchar := hname.2
  value_field := List.forall_mem_cons.mpr ⟨by decide, List.all_eq_true.mp hvalue.valid⟩

theorem dropWhile_fieldOf {name : Text} (hname : name ≠ [] ∧ ∀ c ∈ name, isTchar c)
    {value : Text} (hvalue : PlainValue value) :
    (fieldOf name hname value hvalue).value.dropWhile isBlankByte = asBytes value := by
  change (asBytes value).dropWhile isBlankByte = asBytes value
  cases hbytes : asBytes value with
  | nil => rfl
  | cons b rest =>
      have hb : isBlankByte b = false := hvalue.head b (by rw [hbytes]; rfl)
      rw [List.dropWhile_cons_of_neg (by simp [hb])]

def connectHead (target : Target) (auth : Option { value : Text // PlainValue value }) :
    RequestHead where
  method := ⟨ascii "CONNECT".toList, by decide, by decide⟩
  target := target.word
  version := ⟨ascii "HTTP/1.1".toList, by decide, by decide⟩
  fields :=
    [fieldOf "Host".toList (by decide +kernel) target.text target.plainValue,
      fieldOf "Proxy-Connection".toList (by decide +kernel) "keep-alive".toList
        ⟨by decide +kernel, by decide +kernel⟩] ++
    auth.toList.map fun value =>
      fieldOf "Proxy-Authorization".toList (by decide +kernel) value.val value.property

/-- What a CONNECT should be read as. -/
def connectRead (target : Text) (auth : Option Text) : ReadRequest where
  method := ascii "CONNECT".toList
  target := asBytes target
  version := ascii "HTTP/1.1".toList
  fields :=
    [("Host".toList, asBytes target), ("Proxy-Connection".toList, ascii "keep-alive".toList)] ++
      auth.toList.map fun value => ("Proxy-Authorization".toList, asBytes value)

variable (target : Target) (auth : Option { value : Text // PlainValue value })

theorem lines_connectHead :
    (connectHead target auth).lines =
      [ascii "CONNECT".toList ++ 32 :: (asBytes target.text ++ 32 :: ascii "HTTP/1.1".toList),
        ascii "Host".toList ++ 58 :: 32 :: asBytes target.text,
        ascii "Proxy-Connection".toList ++ 58 :: 32 :: asBytes "keep-alive".toList] ++
      auth.toList.map fun value =>
        ascii "Proxy-Authorization".toList ++ 58 :: 32 :: asBytes value.val := by
  cases auth <;> rfl

theorem asBytes_authLine (value : Text) :
    asBytes ("Proxy-Authorization: ".toList ++ value ++ "\r\n".toList) =
      (ascii "Proxy-Authorization".toList ++ 58 :: 32 :: asBytes value) ++ crlf := by
  have hname : asBytes "Proxy-Authorization: ".toList =
      ascii "Proxy-Authorization".toList ++ [58, 32] := by decide +kernel
  have hend : asBytes "\r\n".toList = crlf := by decide
  have happend (a b c : Text) : asBytes (a ++ b ++ c) = asBytes a ++ asBytes b ++ asBytes c := by
    simp only [asBytes_append]
  rw [happend, hname, hend]
  generalize ascii "Proxy-Authorization".toList = name
  simp

/-- What is written is the encoding of that head. -/
theorem asBytes_connectRequest :
    asBytes (connectRequest target.text (auth.map Subtype.val)) =
      (connectHead target auth).encode := by
  have hconnect : asBytes "CONNECT ".toList = ascii "CONNECT".toList ++ [32] := by decide
  have hhost : asBytes " HTTP/1.1\r\nHost: ".toList =
      32 :: (ascii "HTTP/1.1".toList ++ (crlf ++ (ascii "Host".toList ++ [58, 32]))) := by
    decide +kernel
  have hkept : asBytes "\r\nProxy-Connection: keep-alive\r\n".toList =
      crlf ++ (ascii "Proxy-Connection".toList ++ 58 :: 32 ::
        (asBytes "keep-alive".toList ++ crlf)) := by decide +kernel
  have hend : asBytes "\r\n".toList = crlf := by decide
  have happend (a b c d e f g : Text) : asBytes (a ++ b ++ c ++ d ++ e ++ f ++ g) =
      asBytes a ++ asBytes b ++ asBytes c ++ asBytes d ++ asBytes e ++ asBytes f ++ asBytes g := by
    simp only [asBytes_append]
  have hparts : asBytes (connectRequest target.text (auth.map Subtype.val)) =
      asBytes "CONNECT ".toList ++ asBytes target.text ++ asBytes " HTTP/1.1\r\nHost: ".toList ++
        asBytes target.text ++ asBytes "\r\nProxy-Connection: keep-alive\r\n".toList ++
        (auth.toList.map fun value => ascii "Proxy-Authorization".toList ++
          58 :: 32 :: asBytes value.val).flatMap (· ++ crlf) ++ asBytes "\r\n".toList := by
    cases auth with
    | none => exact happend _ _ _ _ _ [] _
    | some value =>
        refine (happend _ _ _ _ _ _ _).trans ?_
        dsimp only [Option.map_some]
        rw [asBytes_authLine, Option.toList_some, List.map_singleton, List.flatMap_singleton]
  rw [hparts, hconnect, hhost, hkept, hend, RequestHead.encode, lines_connectHead, encodeLines,
    List.flatMap_append]
  -- the fixed texts are the same on both sides
  generalize ascii "CONNECT".toList = connect
  generalize ascii "HTTP/1.1".toList = version
  generalize ascii "Host".toList = host
  generalize ascii "Proxy-Connection".toList = connection
  generalize asBytes "keep-alive".toList = kept
  simp only [List.flatMap_cons, List.flatMap_nil, List.append_assoc, List.cons_append,
    List.nil_append, List.append_nil]

/-- A field that is written with a space after its colon is read without. -/
theorem map_read_fieldOf (name : Text) (hname : name ≠ [] ∧ ∀ c ∈ name, isTchar c)
    (values : List { value : Text // PlainValue value }) :
    (values.map fun value => fieldOf name hname value.val value.property).map
        (fun field => (field.name, field.value.dropWhile isBlankByte)) =
      values.map fun value => (name, asBytes value.val) := by
  rw [List.map_map]
  refine List.map_congr_left fun value _ => ?_
  exact congrArg (Prod.mk name) (dropWhile_fieldOf hname value.property)

theorem read_connectHead :
    (connectHead target auth).read = connectRead target.text (auth.map Subtype.val) := by
  have hkept : asBytes "keep-alive".toList = ascii "keep-alive".toList := by decide +kernel
  have hauth := map_read_fieldOf "Proxy-Authorization".toList (by decide +kernel) auth.toList
  have hauthorization : ((auth.map Subtype.val).toList.map fun value =>
      ("Proxy-Authorization".toList, asBytes value)) =
        auth.toList.map fun value => ("Proxy-Authorization".toList, asBytes value.val) := by
    cases auth <;> rfl
  rw [RequestHead.read, connectHead, connectRead, ← hkept, hauthorization, ← hauth]
  dsimp only
  rw [List.map_append, List.map_cons, List.map_singleton,
    dropWhile_fieldOf _ target.plainValue, dropWhile_fieldOf]
  rfl

/-! ## Injection -/

/-- With a target and a value that can stand in their lines, a CONNECT is one head and
nothing more. -/
theorem oneHead_connectRequest :
    readRequest (asBytes (connectRequest target.text (auth.map Subtype.val))) =
        some (connectRead target.text (auth.map Subtype.val), []) ∧
      EndsFirst (crlf ++ crlf) (asBytes (connectRequest target.text (auth.map Subtype.val))) := by
  rw [asBytes_connectRequest]
  constructor
  · rw [← read_connectHead, ← readRequest_encode, List.append_nil]
  · exact endsFirst_encodeLines (List.cons_ne_nil _ _) fun line hmem =>
      ⟨((connectHead target auth).lines_ok line hmem).1,
        ((connectHead target auth).lines_ok line hmem).2.1⟩

theorem exists_plain_header (credentials : Credentials) :
    ∃ auth : Option { value : Text // PlainValue value },
      auth.map Subtype.val = credentials.header base64 := by
  cases hheader : credentials.header base64 with
  | none => exact ⟨none, rfl⟩
  | some value => exact ⟨some ⟨value, plainValue_header base64 hheader⟩, rfl⟩

/-- Whatever the target and the credentials, a CONNECT is read as the lines that are meant,
each with what was put in it, and its one empty line is its end. -/
theorem connectRequest_oneHead {uri : AuthorityCrate} (hplain : uri.Plain) {text target : Text}
    (htarget : authorityTarget uri text = some target) (credentials : Credentials) :
    readRequest (asBytes (connectRequest target (credentials.header base64))) =
        some (connectRead target (credentials.header base64), []) ∧
      EndsFirst (crlf ++ crlf) (asBytes (connectRequest target (credentials.header base64))) := by
  obtain ⟨target, rfl⟩ := exists_target hplain htarget
  obtain ⟨auth, hauth⟩ := exists_plain_header base64 credentials
  rw [← hauth]
  exact oneHead_connectRequest target auth

/-- The sample crate, refusing what no authority may hold. -/
def plainAuthority : AuthorityCrate :=
  { sampleAuthority with
    authority := fun text => (sampleAuthority.authority text).filter fun authority =>
      (authority.all fun c => !isWhitespace c && !isControl c) &&
        (hostOf authority).all (authority.contains ·) }

theorem plain_plainAuthority : plainAuthority.Plain where
  authority := fun text authority hauthority c hc => by
    obtain ⟨-, hplain⟩ := Option.filter_eq_some_iff.mp hauthority
    have hchar := List.all_eq_true.mp (Bool.and_eq_true_iff.mp hplain).1 c hc
    simpa using hchar
  host := fun text authority hauthority c hc => by
    obtain ⟨-, hplain⟩ := Option.filter_eq_some_iff.mp hauthority
    have hmem := List.all_eq_true.mp (Bool.and_eq_true_iff.mp hplain).2 c hc
    simpa using hmem

/-- Credentials that hold a line end and a field of their own. -/
def hostileCredentials : Credentials := .basic "al\r\nX-Role: admin".toList "é\r\n\r\n".toList

theorem connectRequest_oneHead_hostile :
    readRequest (asBytes (connectRequest "o:443".toList
          (hostileCredentials.header standardBase64))) =
        some (connectRead "o:443".toList (hostileCredentials.header standardBase64), []) ∧
      EndsFirst (crlf ++ crlf) (asBytes (connectRequest "o:443".toList
        (hostileCredentials.header standardBase64))) := by
  have htarget : authorityTarget plainAuthority "u@o:443".toList = some "o:443".toList := by
    decide +kernel
  exact connectRequest_oneHead standardBase64 plain_plainAuthority htarget hostileCredentials

/-! ## The heads of a handshake -/

section

variable {σ : Type*} {τ : Type} (authenticator : Authenticator σ)

/-- What holds of the header a handshake opens with, and is kept by every answer, holds of
every leg. -/
theorem forall_legs {P : AuthState σ → Option Text → Prop}
    (hanswer : ∀ {state auth headers value next}, P state auth →
      state.onChallenge base64 authenticator headers = (.ok value, next) → P next (some value))
    (transport : Transport τ) (reused : Bool) {left leg : Nat} {state : AuthState σ}
    {auth : Option Text} {stream : τ} (hstart : P state auth) :
    ∀ sent ∈ (handshakeLegs base64 authenticator transport reused left leg state auth stream).legs,
      ∃ state, P state sent.auth := by
  induction left generalizing leg state auth stream with
  | zero => exact nofun
  | succ left ih =>
      have hlast (head : Option Head) :
          ∀ sent ∈ [(⟨auth, head⟩ : Leg)], ∃ state, P state sent.auth :=
        fun sent hsent => ⟨state, List.mem_singleton.mp hsent ▸ hstart⟩
      cases handshakeRound base64 authenticator transport reused leg state auth stream with
      | unanswered halt after hsend hround =>
          rw [hround]
          exact hlast none
      | granted headers after hsend hround =>
          rw [hround]
          exact hlast _
      | refused status headers after halt hsend hstatus hfresh hround =>
          rw [hround]
          exact hlast _
      | answered headers after drained value next hsend hdrain hvalue hround =>
          -- the legs after this one were opened by its answer
          rw [hround, Exchange.cons]
          exact List.forall_mem_cons.mpr ⟨⟨state, hstart⟩, ih (hanswer hstart hvalue)⟩

/-- The credentials of the driver, if it has any, were built from a username and a password. -/
def HoldsBuilt : AuthState σ → Prop
  | .basic credentials _ =>
      ∃ username password, credentials = buildBasicAuthorization base64 username password
  | .none => True
  | .negotiate _ => True

/-- What a leg is sent with: built credentials, if any, and a header of those above. -/
structure BuiltHeader (state : AuthState σ) (auth : Option Text) : Prop where
  state : HoldsBuilt base64 state
  header : ∃ credentials : Credentials, auth = credentials.header base64

theorem builtHeader_new {auth : UpstreamAuth σ} (hbuilt : HoldsBuilt base64 (AuthState.new auth)) :
    BuiltHeader base64 (AuthState.new auth).initialHeader.2
      (AuthState.new auth).initialHeader.1 := by
  cases auth with
  | none => exact ⟨trivial, .none, rfl⟩
  | basic credentials =>
      obtain ⟨username, password, rfl⟩ := hbuilt
      exact ⟨⟨username, password, rfl⟩, .basic username password, rfl⟩
  | negotiate factory => exact ⟨trivial, .none, rfl⟩

theorem BuiltHeader.answer {state next : AuthState σ} {auth : Option Text} {headers : Headers}
    {value : Text} (hheld : BuiltHeader base64 state auth)
    (hanswer : state.onChallenge base64 authenticator headers = (.ok value, next)) :
    BuiltHeader base64 next (some value) := by
  rcases onChallenge_cases base64 authenticator hanswer with
    ⟨rfl, rfl⟩ | ⟨before, after, -, rfl, hleg⟩
  · obtain ⟨username, password, rfl⟩ := hheld.state
    exact ⟨⟨username, password, rfl⟩, .basic username password, rfl⟩
  · obtain ⟨keyword, token, -, rfl, -, -⟩ := negotiateLeg_ok base64 authenticator hleg
    exact ⟨trivial, .token keyword token, rfl⟩

/-- Every header of a handshake with built credentials is one of those above. -/
theorem legs_header {auth : UpstreamAuth σ} (hbuilt : HoldsBuilt base64 (AuthState.new auth))
    (transport : Transport τ) (reused : Bool) (stream : τ) :
    ∀ leg ∈ (handshakeOver base64 authenticator transport reused auth stream).legs,
      ∃ credentials : Credentials, leg.auth = credentials.header base64 := by
  intro leg hleg
  obtain ⟨state, hheld⟩ := forall_legs base64 authenticator
    (fun hheld hanswer => hheld.answer base64 authenticator hanswer) transport reused
    (builtHeader_new base64 hbuilt) leg hleg
  exact hheld.header

/-- The auth of a config's slot is built. -/
theorem holdsBuilt_buildAuth (sspi : Text → Schema.SspiPackage → σ) (auth : Schema.AuthConfig)
    (host : Text) : HoldsBuilt base64 (AuthState.new (buildAuth base64 sspi auth host)) := by
  unfold buildAuth
  cases auth.mode with
  | none => trivial
  | basic => exact ⟨_, _, rfl⟩
  | negotiate => trivial

/-- So every CONNECT of a handshake for a config's slot is one head, whatever the upstream
answers. -/
theorem handshake_oneHead {uri : AuthorityCrate} (hplain : uri.Plain) {text dst : Text}
    (htarget : authorityTarget uri text = some dst) (sspi : Text → Schema.SspiPackage → σ)
    (auth : Schema.AuthConfig) (host : Text) (transport : Transport τ) (reused : Bool)
    (stream : τ) :
    ∀ leg ∈ (handshakeOver base64 authenticator transport reused
        (buildAuth base64 sspi auth host) stream).legs,
      readRequest (asBytes (connectRequest dst leg.auth)) =
        some (connectRead dst leg.auth, []) := by
  intro leg hleg
  obtain ⟨target, rfl⟩ := exists_target hplain htarget
  obtain ⟨credentials, hheader⟩ := legs_header base64 authenticator
    (holdsBuilt_buildAuth base64 sspi auth host) transport reused stream leg hleg
  obtain ⟨plain, hauth⟩ := exists_plain_header base64 credentials
  rw [hheader, ← hauth]
  exact (oneHead_connectRequest target plain).1

end

end Zicade.Proxy
