import Zicade.App.PacRouter
import Zicade.Proxy.Origin

/-! # The target of a request

The target is read off the authority of the request's URI, and whatever tracks,
dials, tunnels to or asks about the request uses that text. Towards an origin the
destination is named once more, by the `Host` of the request.
-/

namespace Zicade.Proxy

open Zicade.Foundation Zicade.Auth Zicade.Upstream Zicade.App

/-- `u16::from_str`. -/
def parseU16 (t : Text) : Option UInt16 := (fromStrRadix 10 65536 t).map UInt16.ofNat

/-! ## What is written -/

/-- The text of an authority with these parts. -/
def authorityText (userinfo : Option Text) (host : Text) (port : Option Text) : Text :=
  (match userinfo with | some userinfo => userinfo ++ ['@'] | none => []) ++ host ++
    (match port with | some port => ':' :: port | none => [])

/-- The authority of a URI as it is written; only an address in brackets has a
colon in its host. -/
structure Authority where
  userinfo : Option Text
  host : Text
  port : Option Text
  host_written : (∃ inner, host = '[' :: (inner ++ [']']) ∧ ']' ∉ inner) ∨
    (':' ∉ host ∧ host.head? ≠ some '[')
  at_separates : '@' ∉ host ∧ ∀ t ∈ port, '@' ∉ t ∧ ':' ∉ t
  visible : ∀ c ∈ authorityText userinfo host port, 33 ≤ c.toNat ∧ c.toNat < 127

namespace Authority

def text (authority : Authority) : Text :=
  authorityText authority.userinfo authority.host authority.port

/-- The port it stands for: 80 when none is written, and none when what is written
is no `u16`. -/
def meantPort (authority : Authority) : Option UInt16 :=
  match authority.port with
  | none | some [] => some 80
  | some written => parseU16 written

end Authority

/-- `Authority` of the `http` crate, on the text that `as_str` gives. -/
structure AuthorityCrate extends UriCrate where
  host : Text → Text
  portU16 : Text → Option UInt16
  host_eq : ∀ written : Authority, host written.text = written.host
  portU16_eq : ∀ written : Authority, portU16 written.text = written.port.bind parseU16

/-! ## What the proxy does with a request -/

inductive Action (σ : Type*)
  | tunnel (target : Text)
  | tunnelVia (upstream : UpstreamTarget σ) (dst : Text)
  | forward (target : Text) (outbound : Parts)
  | forwardVia (upstream : UpstreamTarget σ)
  | fail (message : String)

/-- A request that was taken on: the target of its tracked entry, the URL the PAC
router was asked about, and what is done. -/
structure Served (σ : Type*) where
  tracked : Text
  asked : Option Text
  action : Action σ

/-- A PAC router, as the requests see it. -/
abbrev ResolveRoute (σ : Type*) := Text → Except String (RouteChoice σ)

def connectMethod : Text := "CONNECT".toList

section

variable {σ : Type*} (http : HttpCrate) (uri : AuthorityCrate)

/-- `host:port` of a URI, with the default port of HTTP. -/
def authorityTarget (text : Text) : Option Text :=
  (uri.authority text).map fun authority =>
    hostPort (uri.host authority) ((uri.portU16 authority).getD 80)

/-- PAC-mode `CONNECT`: the router is asked about `https://host:port`. -/
def handleConnectPac (router : ResolveRoute σ) (dst : Text) : Served σ :=
  let url := "https://".toList ++ dst
  { tracked := dst, asked := some url
    action :=
      match router url with
      | .ok .direct => .tunnel dst
      | .ok (.upstream target) => .tunnelVia target dst
      | .error message => .fail ("PAC resolution failed: " ++ message) }

def forwardHttp (parts : Parts) : Action σ :=
  match authorityTarget uri parts.uri with
  | none => .fail "request missing host authority"
  | some target => .forward target (toOriginForm http uri.toUriCrate parts)

/-- PAC-mode forward: the router is asked about the URI of the request. -/
def forwardPac (router : ResolveRoute σ) (parts : Parts) : Action σ :=
  match router parts.uri with
  | .ok .direct => forwardHttp http uri parts
  | .ok (.upstream target) => .forwardVia target
  | .error message => .fail message

/-- Nothing is served without an authority. -/
def proxyService (routing : Netmon.Routing (UpstreamTarget σ) (ResolveRoute σ))
    (parts : Parts) : Option (Served σ) :=
  (authorityTarget uri parts.uri).map fun target =>
    if parts.method = connectMethod then
      match routing with
      | .direct => ⟨target, none, .tunnel target⟩
      | .upstream upstream => ⟨target, none, .tunnelVia upstream target⟩
      | .pac router => handleConnectPac router target
    else
      match routing with
      | .direct => ⟨target, none, forwardHttp http uri parts⟩
      | .upstream upstream => ⟨target, none, .forwardVia upstream⟩
      | .pac router => ⟨target, some parts.uri, forwardPac http uri router parts⟩

/-! ## The duty -/

/-- A `Host` names a destination: in any case, and with the port 80 written or not. -/
def NamesDestination (value : Bytes) (destination : Text) (port : UInt16) : Prop :=
  ∃ named : Authority, named.userinfo = none ∧ value = asBytes named.text ∧
    eqIgnoreAsciiCase named.host destination ∧ named.meantPort = some port

def Action.Uses (target : Text) : Action σ → Prop
  | .tunnel dialed => dialed = target
  | .tunnelVia _ dst => dst = target
  | .forward dialed _ => dialed = target
  | .forwardVia _ => True
  | .fail _ => True

/-- Everything about a request that names a target names this one. -/
structure Served.Uses (served : Served σ) (method target : Text) : Prop where
  tracked : served.tracked = target
  asked : method = connectMethod → ∀ url ∈ served.asked, url = "https://".toList ++ target
  action : served.action.Uses target

/-- A request is served as its URI is written: the target is its host with the port
it stands for, and what is sent to an origin has one `Host`, for that destination.
With a port that is none it is refused. -/
def ServedAsWritten (authority : Authority) (parts : Parts) (served : Option (Served σ)) : Prop :=
  match authority.meantPort with
  | none => served = none
  | some port => ∃ taken, served = some taken ∧
      taken.Uses parts.method (hostPort authority.host port) ∧
      ∀ dialed outbound, taken.action = .forward dialed outbound →
        ∃ value, values outbound.headers host = [value] ∧
          NamesDestination value authority.host port

/-- The request goes to the origin itself. -/
def ForwardsDirectly (routing : Netmon.Routing (UpstreamTarget σ) (ResolveRoute σ))
    (parts : Parts) : Prop :=
  parts.method ≠ connectMethod ∧
    match routing with
    | .direct => True
    | .upstream _ => False
    | .pac router => router parts.uri = .ok .direct

/-- The client sent one `Host` that names this destination, or none and no userinfo. -/
def HostClear (authority : Authority) (port : UInt16) (headers : HeaderMap) : Prop :=
  match values headers host with
  | [] => authority.userinfo = none
  | [value] => NamesDestination value authority.host port
  | _ => False

/-! ## The target -/

/-- The crate's port with the default is the port that is meant, or the default. -/
theorem portU16_getD (written : Authority) :
    (uri.portU16 written.text).getD 80 = written.meantPort.getD 80 := by
  rw [uri.portU16_eq, Authority.meantPort]
  split
  next hport => rw [hport]; rfl
  next hport => rw [hport]; rfl
  next port _ hport => rw [hport, Option.bind_some]

variable {uri}

theorem authorityTarget_eq {written : Authority} {text : Text}
    (hwritten : uri.authority text = some written.text) :
    authorityTarget uri text = some (hostPort written.host (written.meantPort.getD 80)) := by
  rw [authorityTarget, hwritten, Option.map_some, uri.host_eq, portU16_getD]

/-- Every way a request is served uses its target. -/
theorem proxyService_uses (routing : Netmon.Routing (UpstreamTarget σ) (ResolveRoute σ))
    {parts : Parts} {target : Text} (htarget : authorityTarget uri parts.uri = some target) :
    ∃ served, proxyService http uri routing parts = some served ∧
      served.Uses parts.method target := by
  have hforward : (forwardHttp (σ := σ) http uri parts).Uses target := by
    rw [forwardHttp, htarget]
    rfl
  rw [proxyService, htarget, Option.map_some]
  refine ⟨_, rfl, ?_⟩
  split
  next hconnect =>
    cases routing with
    | direct => exact ⟨rfl, fun _ url hurl => (by cases hurl), rfl⟩
    | upstream upstream => exact ⟨rfl, fun _ url hurl => (by cases hurl), rfl⟩
    | pac router =>
        refine ⟨rfl, fun _ url hurl => (Option.some.inj hurl).symm, ?_⟩
        simp only [handleConnectPac]
        split <;> first | rfl | trivial
  next hother =>
    cases routing with
    | direct => exact ⟨rfl, fun hconnect => absurd hconnect hother, hforward⟩
    | upstream upstream => exact ⟨rfl, fun hconnect => absurd hconnect hother, trivial⟩
    | pac router =>
        refine ⟨rfl, fun hconnect => absurd hconnect hother, ?_⟩
        simp only [forwardPac]
        split
        · exact hforward
        · trivial
        · trivial

/-- What is sent to an origin is the request in origin form, if it goes there. -/
theorem proxyService_forward (routing : Netmon.Routing (UpstreamTarget σ) (ResolveRoute σ))
    {parts : Parts} {target : Text} (htarget : authorityTarget uri parts.uri = some target)
    {served : Served σ} (hserved : proxyService http uri routing parts = some served)
    (dialed : Text) (outbound : Parts) :
    served.action = .forward dialed outbound ↔
      ForwardsDirectly routing parts ∧ dialed = target ∧
        outbound = toOriginForm http uri.toUriCrate parts := by
  have hforward : forwardHttp (σ := σ) http uri parts =
      .forward target (toOriginForm http uri.toUriCrate parts) := by
    rw [forwardHttp, htarget]
  rw [proxyService, htarget, Option.map_some, Option.some.injEq] at hserved
  subst hserved
  unfold ForwardsDirectly
  split
  next hconnect =>
    have hnever : ¬(parts.method ≠ connectMethod) := fun hother => hother hconnect
    cases routing with
    | direct => simp [hnever]
    | upstream upstream => simp [hnever]
    | pac router =>
        simp only [handleConnectPac, hnever, false_and, iff_false]
        split <;> exact nofun
  next hother =>
    cases routing with
    | direct => simp [hforward, hother, eq_comm]
    | upstream upstream => simp
    | pac router =>
        simp only [forwardPac, hforward, ne_eq, hother, not_false_eq_true, true_and]
        split
        next hdirect => simp [hdirect, eq_comm]
        next hupstream => simp [hupstream]
        next herror => simp [herror]

/-! ## The `Host` -/

/-- Visible characters are ASCII. -/
theorem Authority.ascii_text (written : Authority) : ∀ c ∈ written.text, c.toNat < 0x80 :=
  fun c hc => (written.visible c hc).2.trans (by decide)

/-- An authority without userinfo has no `@`. -/
theorem Authority.at_mem_iff (written : Authority) :
    '@' ∈ written.text ↔ written.userinfo ≠ none := by
  obtain ⟨hhost, hport⟩ := written.at_separates
  unfold text authorityText
  cases huserinfo : written.userinfo with
  | some userinfo => simp
  | none =>
      cases hwritten : written.port with
      | none => simpa using hhost
      | some port => simp [hhost, (hport port hwritten).1]

/-- Only an authority without userinfo names anything. -/
theorem namesDestination_text_iff (written : Authority) {port : UInt16}
    (hport : written.meantPort = some port) :
    NamesDestination (asBytes written.text) written.host port ↔ written.userinfo = none := by
  constructor
  · rintro ⟨named, hnone, htext, -, -⟩
    have hsame : written.text = named.text := asBytes_inj htext
    by_contra hsome
    rw [← Ne, ← written.at_mem_iff, hsame, named.at_mem_iff] at hsome
    exact hsome hnone
  · intro hnone
    exact ⟨written, hnone, rfl, beq_self_eq_true _, hport⟩

variable (uri)

/-- A request without a `Host` is given the authority, userinfo and all. -/
theorem values_addedHost_host {written : Authority} {parts : Parts}
    (hwritten : uri.authority parts.uri = some written.text) :
    values (addedHost http uri.toUriCrate parts) host =
      if values parts.headers host = [] then [asBytes written.text] else [] := by
  have hvalue : http.headerValue written.text = some (asBytes written.text) := by
    rw [http.headerValue_eq, if_pos]
    rw [asBytes_of_ascii written.ascii_text, ascii, List.all_map, List.all_eq_true]
    intro c hc
    obtain ⟨hlow, hhigh⟩ := written.visible c hc
    have hlt : c.toNat < 256 := by omega
    have hbyte : (UInt8.ofNat c.toNat).toNat = c.toNat :=
      UInt8.toNat_ofNat_of_lt' (by simpa using hlt)
    simp only [Function.comp_apply, isFieldByte, hbyte, Bool.or_eq_true, Bool.and_eq_true,
      decide_eq_true_eq, bne_iff_ne]
    omega
  have hany : (parts.headers.any fun header => header.1 == host) = true ↔
      ¬values parts.headers host = [] := by
    rw [values_eq_nil_iff, List.any_eq_true]
    simp
  unfold addedHost
  split
  next hpresent =>
    rw [if_neg (hany.mp hpresent)]
    rfl
  next habsent =>
    rw [hwritten, Option.bind_some, hvalue, if_pos (by_contra fun hne => habsent (hany.mpr hne))]
    rfl

/-- What goes to an origin names the destination once exactly if the client does, or
names none and writes no userinfo. -/
theorem toOriginForm_names_iff {written : Authority} {parts : Parts} {port : UInt16}
    (hwritten : uri.authority parts.uri = some written.text)
    (hport : written.meantPort = some port) :
    (∃ value, values (toOriginForm http uri.toUriCrate parts).headers host = [value] ∧
        NamesDestination value written.host port) ↔
      HostClear written port parts.headers := by
  rw [values_toOriginForm, if_pos (by decide), values_addedHost_host http uri hwritten, HostClear]
  cases values parts.headers host with
  | nil => simp [namesDestination_text_iff written hport]
  | cons first rest =>
      cases rest with
      | nil => simp
      | cons second rest => simp

/-- A request is served as its URI is written exactly if the written port is a
`u16`, and a request that goes to the origin has a clear `Host`. -/
theorem served_as_written_iff (routing : Netmon.Routing (UpstreamTarget σ) (ResolveRoute σ))
    (written : Authority) (parts : Parts)
    (hwritten : uri.authority parts.uri = some written.text) :
    ServedAsWritten written parts (proxyService http uri routing parts) ↔
      ∃ port, written.meantPort = some port ∧
        (ForwardsDirectly routing parts → HostClear written port parts.headers) := by
  have htarget := authorityTarget_eq hwritten
  obtain ⟨served, hserved, huses⟩ := proxyService_uses http routing htarget
  have hforward := proxyService_forward http routing htarget hserved
  rw [ServedAsWritten, hserved]
  cases hport : written.meantPort with
  | none => simp
  | some port =>
      rw [hport, Option.getD_some] at huses
      simp only [Option.some.injEq, exists_eq_left', huses, true_and]
      rw [← toOriginForm_names_iff http uri hwritten hport]
      constructor
      · intro hsent hdirect
        exact hsent _ _ ((hforward _ _).mpr ⟨hdirect, rfl, rfl⟩)
      · intro hclear dialed outbound haction
        obtain ⟨hdirect, -, rfl⟩ := (hforward dialed outbound).mp haction
        exact hclear hdirect

end

/-! ## An authority that is taken apart -/

/-- `Authority::host`: the text after the last `@`, up to the bracket or the colon. -/
def hostOf (text : Text) : Text :=
  match afterLast '@' text with
  | '[' :: rest => '[' :: (rest.takeWhile (· != ']') ++ [']'])
  | other => other.takeWhile (· != ':')

/-- `Authority::port_u16`: what stands after the last colon. -/
def portOf (text : Text) : Option UInt16 :=
  if ':' ∈ text then parseU16 (afterLast ':' text) else none

/-- No number has a character of this kind. -/
theorem parseU16_eq_none {t : Text} (hmem : ']' ∈ t ∨ '@' ∈ t) : parseU16 t = none := by
  rw [parseU16, Option.map_eq_none_iff]
  cases hread : fromStrRadix 10 65536 t with
  | none => rfl
  | some n =>
      rcases hmem with hmem | hmem <;>
        exact absurd (mem_fromStrRadix_range hread hmem) (by decide)

namespace Authority

/-- The text without the userinfo. -/
theorem afterLast_text (written : Authority) :
    afterLast '@' written.text = authorityText none written.host written.port := by
  obtain ⟨hhost, hport⟩ := written.at_separates
  have hnone : '@' ∉ authorityText none written.host written.port := by
    unfold authorityText
    cases hwritten : written.port with
    | none => simpa using hhost
    | some port => simp [hhost, (hport port hwritten).1]
  unfold text
  cases written.userinfo with
  | none => exact afterLast_of_not_mem hnone
  | some userinfo =>
      have htext : authorityText (some userinfo) written.host written.port =
          userinfo ++ '@' :: authorityText none written.host written.port := by
        simp [authorityText]
      rw [htext, afterLast_append_cons _ hnone]

theorem hostOf_text (written : Authority) : hostOf written.text = written.host := by
  unfold hostOf
  rw [written.afterLast_text]
  unfold authorityText
  rw [List.nil_append]
  rcases written.host_written with ⟨inner, hhost, hinner⟩ | ⟨hcolon, hhead⟩
  · -- the brackets end the host, whatever port follows
    have htake : ∀ after : Text,
        (inner ++ ']' :: after).takeWhile (· != ']') = inner := by
      intro after
      rw [List.takeWhile_append_of_pos]
      · simp
      · intro c hc
        simpa using fun heq : c = ']' => hinner (heq ▸ hc)
    rw [hhost]
    simp only [List.cons_append, List.append_assoc, List.nil_append, htake]
  · have htake : written.host.takeWhile (· != ':') = written.host := by
      rw [List.takeWhile_eq_self_iff]
      intro c hc
      simpa using fun heq : c = ':' => hcolon (heq ▸ hc)
    split
    next rest hbracket =>
      -- no host starts with a bracket, and no port either
      cases hhost : written.host with
      | nil => cases hport : written.port <;> simp [hhost, hport] at hbracket
      | cons c others =>
          rw [hhost, List.cons_append, List.cons.injEq] at hbracket
          exact absurd (by rw [hhost, hbracket.1]; rfl) hhead
    next =>
      rw [List.takeWhile_append, htake, if_pos rfl]
      cases written.port <;> simp

theorem portOf_text (written : Authority) :
    portOf written.text = written.port.bind parseU16 := by
  cases hwritten : written.port with
  | some port =>
      obtain ⟨front, htext⟩ : ∃ front, written.text = front ++ ':' :: port :=
        ⟨_, by rw [text, hwritten]; rfl⟩
      rw [portOf, htext, if_pos (by simp),
        afterLast_append_cons front (written.at_separates.2 port hwritten).2, Option.bind_some]
  | none =>
      unfold portOf
      split
      next hmem =>
        rw [Option.bind_none]
        rcases written.host_written with ⟨inner, hhost, -⟩ | ⟨hcolon, -⟩
        · have htext : written.text =
              authorityText written.userinfo ('[' :: inner) none ++ [']'] := by
            simp [text, authorityText, hwritten, hhost]
          apply parseU16_eq_none
          left
          rw [htext, afterLast_append _ (by decide)]
          exact List.mem_append_right _ (List.mem_singleton_self _)
        · -- the colon stands in the userinfo
          cases huserinfo : written.userinfo with
          | none => simp [text, authorityText, hwritten, huserinfo, hcolon] at hmem
          | some userinfo =>
              have htext : written.text = userinfo ++ '@' :: written.host := by
                simp [text, authorityText, hwritten, huserinfo]
              apply parseU16_eq_none
              right
              rw [htext, afterLast_append _ (by simpa using hcolon)]
              exact List.mem_append_right _ List.mem_cons_self
      next => rfl

end Authority

/-- The crate on the URIs `http://<authority>/<path>` and `<authority>`. -/
def sampleAuthority : AuthorityCrate where
  authority text :=
    if "http://".toList.isPrefixOf text then some ((text.drop 7).takeWhile (· != '/'))
    else if '/' ∈ text then none else some text
  pathAndQuery text :=
    if "http://".toList.isPrefixOf text then some ((text.drop 7).dropWhile (· != '/')) else none
  parse text := if text.head? = some '/' then some text else none
  host := hostOf
  portU16 := portOf
  host_eq := Authority.hostOf_text
  portU16_eq := Authority.portOf_text

def bareAuthority : Authority where
  userinfo := none
  host := "o".toList
  port := none
  host_written := .inr (by decide)
  at_separates := ⟨by decide, nofun⟩
  visible := by decide

def namedAuthority : Authority where
  userinfo := some "u".toList
  host := "o".toList
  port := none
  host_written := .inr (by decide)
  at_separates := ⟨by decide, nofun⟩
  visible := by decide

def largePort : Authority where
  userinfo := none
  host := "o".toList
  port := some "99999".toList
  host_written := .inr (by decide)
  at_separates := ⟨by decide, fun t ht => Option.some.inj ht ▸ by decide⟩
  visible := by decide

def getParts (uri : String) (headers : HeaderMap) : Parts := ⟨"GET".toList, uri.toList, headers⟩

/-- A request without a `Host` is served as written. -/
theorem served_as_written_iff_noHost :
    ServedAsWritten bareAuthority (getParts "http://o/x" [])
      (proxyService (σ := Nat) orderedHttp sampleAuthority .direct (getParts "http://o/x" [])) :=
  (served_as_written_iff orderedHttp sampleAuthority .direct bareAuthority
    (getParts "http://o/x" []) (by decide)).mpr ⟨80, rfl, fun _ => rfl⟩

/-- A tunnel asked for at port 99999 is dialed at port 80; the userinfo goes out in
the `Host`; and a `Host` that names another server goes out as it came. -/
theorem served_otherwise :
    (proxyService (σ := Nat) orderedHttp sampleAuthority .direct
        ⟨connectMethod, "o:99999".toList, []⟩).map (·.tracked) = some "o:80".toList ∧
      ¬ServedAsWritten largePort ⟨connectMethod, "o:99999".toList, []⟩
        (proxyService (σ := Nat) orderedHttp sampleAuthority .direct
          ⟨connectMethod, "o:99999".toList, []⟩) ∧
      ¬ServedAsWritten namedAuthority (getParts "http://u@o/x" [])
        (proxyService (σ := Nat) orderedHttp sampleAuthority .direct
          (getParts "http://u@o/x" [])) ∧
      ¬ServedAsWritten bareAuthority (getParts "http://o/x" [(host, ascii "p".toList)])
        (proxyService (σ := Nat) orderedHttp sampleAuthority .direct
          (getParts "http://o/x" [(host, ascii "p".toList)])) := by
  refine ⟨by decide, nofun, ?_, ?_⟩
  · rintro ⟨taken, hserved, -, hsent⟩
    obtain rfl := Option.some.inj hserved
    have hwritten : sampleAuthority.authority "http://u@o/x".toList =
      some namedAuthority.text := by decide
    have hnames := hsent _ _ rfl
    rw [toOriginForm_names_iff orderedHttp sampleAuthority hwritten rfl] at hnames
    cases hnames
  · rintro ⟨taken, hserved, -, hsent⟩
    obtain rfl := Option.some.inj hserved
    have hwritten : sampleAuthority.authority "http://o/x".toList =
      some bareAuthority.text := by decide
    have hnames := hsent _ _ rfl
    rw [toOriginForm_names_iff orderedHttp sampleAuthority hwritten rfl] at hnames
    obtain ⟨named, hnone, htext, hsame, -⟩ := hnames
    have hnamed : "p".toList = named.text := asBytes_inj htext
    have hhost : named.host = "p".toList ∨ named.host = [] := by
      rw [Authority.text, hnone] at hnamed
      cases hport : named.port with
      | none => simpa [authorityText, hport, eq_comm] using Or.inl hnamed
      | some port => cases hcase : named.host <;> simp [authorityText, hport, hcase] at hnamed ⊢
    rcases hhost with hhost | hhost <;> rw [hhost] at hsame <;> exact absurd hsame (by decide)

end Zicade.Proxy
