import Zicade.Upstream.Forward

/-! # What stays at the proxy

A plain HTTP request is rewritten for the origin in direct mode, and for the
upstream on every leg in upstream mode. Some of the client's header fields are
for the proxy itself: both rewriters are held to the same duty towards them.
-/

namespace Zicade.Proxy

open Zicade.Foundation Zicade.Auth Zicade.Upstream

/-- The header fields of a request, their names in lower case. -/
abbrev HeaderMap := List (Text × Bytes)

/-- The values of one name, in order. -/
def values (headers : HeaderMap) (name : Text) : List Bytes :=
  (headers.filter fun header => header.1 == name).map Prod.snd

def host : Text := "host".toList

def connection : Text := "connection".toList

def proxyConnection : Text := "proxy-connection".toList

/-- `Uri` of the `http` crate, on the text of a URI. -/
structure UriCrate where
  authority : Text → Option Text
  pathAndQuery : Text → Option Text
  parse : Text → Option Text

section

variable (http : HttpCrate) (uri : UriCrate) (parts : Parts)

/-- The `Host` that a request without one is given. -/
def addedHost : HeaderMap :=
  if parts.headers.any fun header => header.1 == host then []
  else match (uri.authority parts.uri).bind http.headerValue with
    | some value => [(host, value)]
    | none => []

/-- Rewrite an absolute-form request for the origin; the body goes along. -/
def toOriginForm : Parts :=
  let headers := parts.headers ++ addedHost http uri parts
  let originForm := (uri.pathAndQuery parts.uri).getD ['/']
  { parts with
    uri := (uri.parse originForm).getD ['/']
    headers := headers.filter fun header => header.1 != proxyConnection }

/-- What the upstream path adds of its own: a `Connection`, and the
`Proxy-Authorization` of the leg if it has one. -/
def legHeaders (auth : Option Text) : HeaderMap :=
  (connection, ascii "keep-alive".toList) ::
    ((auth.bind http.headerValue).map fun value => (proxyAuthorization, value)).toList

end

/-! ## The duty -/

/-- The options that the client's `Connection` lists, in lower case. -/
def connectionOptions (headers : HeaderMap) : List Text :=
  (values headers connection).flatMap fun value =>
    (value.splitOn 44).map fun option => toAsciiLowercase ((trimOws option).map asciiChar)

/-- The names of the fields that are for the proxy. -/
def meantForProxy (client : HeaderMap) (name : Text) : Bool :=
  [connection, proxyConnection, proxyAuthorization].contains name ||
    (connectionOptions client).contains name

/-- Of what the client means for the proxy only the path's own fields go out,
and every other field goes out as it came, but for the framing. -/
structure StaysAtProxy (client outbound own : HeaderMap) (framing : List Text) : Prop where
  stays : ∀ name, meantForProxy client name → values outbound name = values own name
  kept : ∀ name, meantForProxy client name = false → name ∉ framing →
    values outbound name = values client name ++ values own name

/-- The fields the upstream path derives again from the body. -/
def framingHeaders : List Text := ["content-length".toList, "transfer-encoding".toList]

/-- Nothing in the request is for the proxy but `Proxy-Connection`. -/
def DirectClear (client : HeaderMap) : Prop :=
  ∀ header ∈ client, header.1 ≠ connection ∧ header.1 ≠ proxyAuthorization

/-- The client's `Connection` names no field that is sent on. -/
def UpstreamClear (client : HeaderMap) : Prop :=
  ∀ header ∈ client, header.1 ∈ connectionOptions client → header.1 ∈ strippedHeaders

/-! ## Values of a name -/

theorem values_append (front back : HeaderMap) (name : Text) :
    values (front ++ back) name = values front name ++ values back name := by
  rw [values, List.filter_append, List.map_append]
  rfl

/-- A filter on names keeps all the values of a name or none. -/
theorem values_filter (keep : Text → Bool) (headers : HeaderMap) (name : Text) :
    values (headers.filter fun header => keep header.1) name =
      if keep name then values headers name else [] := by
  rw [values, List.filter_filter]
  split
  next hkeep =>
    rw [values]
    congr 1
    apply List.filter_congr
    intro header _
    by_cases hname : header.1 == name
    · rw [hname, eq_of_beq hname, hkeep]
      rfl
    · simp [hname]
  next hdrop =>
    rw [List.map_eq_nil_iff, List.filter_eq_nil_iff]
    intro header _ hboth
    obtain ⟨hname, hkeep⟩ := Bool.and_eq_true_iff.mp hboth
    exact hdrop (eq_of_beq hname ▸ hkeep)

theorem values_eq_nil_iff {headers : HeaderMap} {name : Text} :
    values headers name = [] ↔ ∀ header ∈ headers, header.1 ≠ name := by
  rw [values, List.map_eq_nil_iff, List.filter_eq_nil_iff]
  simp

theorem meantForProxy_of_option {client : HeaderMap} {name : Text}
    (hoption : name ∈ connectionOptions client) : meantForProxy client name :=
  Bool.or_eq_true_iff.mpr (.inr (List.contains_iff_mem.mpr hoption))

section

variable (http : HttpCrate) (uri : UriCrate) (parts : Parts)

/-! ## Direct mode -/

/-- The path adds no field but `Host`. -/
theorem values_addedHost {name : Text} (hname : name ≠ host) :
    values (addedHost http uri parts) name = [] := by
  rw [values_eq_nil_iff]
  intro header hmem
  unfold addedHost at hmem
  split at hmem
  next => cases hmem
  next =>
    split at hmem
    next value _ =>
      rw [List.mem_singleton.mp hmem]
      exact hname.symm
    next => cases hmem

theorem values_toOriginForm (name : Text) :
    values (toOriginForm http uri parts).headers name =
      if name != proxyConnection then
        values parts.headers name ++ values (addedHost http uri parts) name
      else [] := by
  rw [← values_append]
  exact values_filter (· != proxyConnection) _ name

/-- Towards an origin the duty is met when the request has nothing to keep back. -/
theorem direct_stays_iff :
    StaysAtProxy parts.headers (toOriginForm http uri parts).headers (addedHost http uri parts) [] ↔
      DirectClear parts.headers := by
  constructor
  · intro h header hmem
    -- either name would go out with the client's values
    have hsent : ∀ name, meantForProxy parts.headers name → name ≠ host → name ≠ proxyConnection →
        header.1 ≠ name := by
      intro name hmeant hhost hconnection
      have hstays := h.stays name hmeant
      rw [values_toOriginForm, if_pos (bne_iff_ne.mpr hconnection),
        values_addedHost http uri parts hhost, List.append_nil] at hstays
      exact values_eq_nil_iff.mp hstays header hmem
    exact ⟨hsent connection rfl (by decide) (by decide),
      hsent proxyAuthorization rfl (by decide) (by decide)⟩
  · intro hclear
    have hnoConnection : values parts.headers connection = [] :=
      values_eq_nil_iff.mpr fun header hmem => (hclear header hmem).1
    have hnoAuthorization : values parts.headers proxyAuthorization = [] :=
      values_eq_nil_iff.mpr fun header hmem => (hclear header hmem).2
    have hoptions : connectionOptions parts.headers = [] := by
      rw [connectionOptions, hnoConnection]
      rfl
    constructor
    · intro name hmeant
      rw [meantForProxy, hoptions] at hmeant
      have hname : name = connection ∨ name = proxyConnection ∨ name = proxyAuthorization := by
        simpa using hmeant
      rw [values_toOriginForm]
      rcases hname with rfl | rfl | rfl
      · rw [if_pos (by decide), hnoConnection, List.nil_append]
      · rw [if_neg (by decide), values_addedHost http uri parts (by decide)]
      · rw [if_pos (by decide), hnoAuthorization, List.nil_append]
    · intro name hmeant _
      have hname : name ≠ proxyConnection := by
        rintro rfl
        exact absurd hmeant (by simp [meantForProxy])
      rw [values_toOriginForm, if_pos (bne_iff_ne.mpr hname)]

/-! ## Upstream mode -/

theorem upstreamRequest_headers {body : Bytes} {auth : Option Text} {request : Request}
    (h : upstreamRequest http parts body auth = .ok request) :
    request.parts.headers =
      (parts.headers.filter fun header => !strippedHeaders.contains header.1) ++
        legHeaders http auth := by
  unfold upstreamRequest at h
  cases auth with
  | none =>
      rw [← Except.ok.inj h]
      rfl
  | some value =>
      dsimp only at h
      split at h
      next => cases h
      next bytes hvalue =>
        rw [← Except.ok.inj h, legHeaders, Option.bind_some, hvalue, List.append_assoc]
        rfl

theorem values_upstreamRequest {body : Bytes} {auth : Option Text} {request : Request}
    (h : upstreamRequest http parts body auth = .ok request) (name : Text) :
    values request.parts.headers name =
      (if !strippedHeaders.contains name then values parts.headers name else []) ++
        values (legHeaders http auth) name := by
  rw [upstreamRequest_headers http parts h, values_append]
  exact congrArg (· ++ _) (values_filter (fun name => !strippedHeaders.contains name) _ name)

/-- Towards the upstream the duty is met when `Connection` names nothing that is
sent on. -/
theorem upstream_stays_iff {body : Bytes} {auth : Option Text} {request : Request}
    (h : upstreamRequest http parts body auth = .ok request) :
    StaysAtProxy parts.headers request.parts.headers (legHeaders http auth) framingHeaders ↔
      UpstreamClear parts.headers := by
  constructor
  · intro hduty header hmem hoption
    by_contra hsent
    have hstays := hduty.stays header.1 (meantForProxy_of_option hoption)
    have hnot : strippedHeaders.contains header.1 = false := by
      simpa using hsent
    rw [values_upstreamRequest http parts h, hnot, Bool.not_false, if_pos rfl,
      List.append_left_eq_self] at hstays
    exact values_eq_nil_iff.mp hstays header hmem rfl
  · intro hclear
    constructor
    · intro name hmeant
      rw [values_upstreamRequest http parts h]
      by_cases hstripped : name ∈ strippedHeaders
      · rw [if_neg (by simpa using hstripped), List.nil_append]
      · -- a name that is sent on can only be one that `Connection` lists
        have hoption : name ∈ connectionOptions parts.headers := by
          rcases Bool.or_eq_true_iff.mp hmeant with hname | hoption
          · have hsubset : [connection, proxyConnection, proxyAuthorization] ⊆ strippedHeaders := by
              decide
            exact absurd (hsubset (List.contains_iff_mem.mp hname)) hstripped
          · exact List.contains_iff_mem.mp hoption
        have hnone : values parts.headers name = [] := by
          rw [values_eq_nil_iff]
          rintro header hmem rfl
          exact hstripped (hclear header hmem hoption)
        rw [hnone, ite_self, List.nil_append]
    · intro name hmeant hframing
      have hsent : name ∉ strippedHeaders := by
        intro hstripped
        have hsubset : strippedHeaders ⊆
            framingHeaders ++ [connection, proxyConnection, proxyAuthorization] := by
          decide
        rcases List.mem_append.mp (hsubset hstripped) with hmem | hmem
        · exact hframing hmem
        · rw [meantForProxy, List.contains_iff_mem.mpr hmem] at hmeant
          cases hmeant
      rw [values_upstreamRequest http parts h, if_pos (by simpa using hsent)]

variable {σ : Type*} (base64 : Base64) (authenticator : Authenticator σ) (body : Bytes)

/-- Every leg is built from the client's request and the answer of that leg. -/
theorem forwardLegs_request (left leg : Nat) (authState : AuthState σ) (auth : Option Text)
    (connection : Option (List Response)) :
    ∀ sent ∈ (forwardLegs http base64 authenticator parts body left leg authState auth
      connection).legs, ∃ auth, upstreamRequest http parts body auth = .ok sent.request := by
  induction left generalizing leg authState auth connection with
  | zero => intro sent hmem; cases hmem
  | succ left ih =>
      intro sent hmem
      cases connection with
      | none => cases hmem
      | some responses =>
        rw [forwardLegs] at hmem
        split at hmem
        next => cases hmem
        next request hrequest =>
          have hthis : ∀ status, sent = ⟨request, status⟩ →
              ∃ auth, upstreamRequest http parts body auth = .ok sent.request := by
            rintro status rfl
            exact ⟨auth, hrequest⟩
          split at hmem
          next => exact hthis _ (List.mem_singleton.mp hmem)
          next response rest _ =>
            dsimp only at hmem
            split_ifs at hmem
            · exact hthis _ (List.mem_singleton.mp hmem)
            · exact hthis _ (List.mem_singleton.mp hmem)
            · split at hmem
              next => exact hthis _ (List.mem_singleton.mp hmem)
              next =>
                split at hmem
                next => exact hthis _ (List.mem_singleton.mp hmem)
                next =>
                  rcases List.mem_cons.mp hmem with hfirst | hlater
                  · exact hthis _ hfirst
                  · exact ih _ _ _ _ sent hlater

/-- In direct mode, and in upstream mode on every leg, what is meant for the
proxy stays there exactly when the client's header fields are clear of what the
mode fails to keep back. -/
theorem stays_at_proxy_iff (auth : UpstreamAuth σ) (responses : List Response) :
    (StaysAtProxy parts.headers (toOriginForm http uri parts).headers
        (addedHost http uri parts) [] ↔ DirectClear parts.headers) ∧
      ∀ sent ∈ (forwardHandshake http base64 authenticator parts body auth responses).legs,
        ∃ auth, upstreamRequest http parts body auth = .ok sent.request ∧
          (StaysAtProxy parts.headers sent.request.parts.headers (legHeaders http auth)
              framingHeaders ↔ UpstreamClear parts.headers) := by
  refine ⟨direct_stays_iff http uri parts, fun sent hmem => ?_⟩
  obtain ⟨header, hrequest⟩ := forwardLegs_request http parts base64 authenticator body _ _ _ _ _
    sent hmem
  exact ⟨header, hrequest, upstream_stays_iff http parts hrequest⟩

end

/-- The URIs of one origin, and the texts that parse. -/
def sampleUri : UriCrate where
  authority text := if "http://o/".toList.isPrefixOf text then some ['o'] else none
  pathAndQuery text := if "http://o/".toList.isPrefixOf text then some (text.drop 8) else none
  parse text := if text.head? = some '/' then some text else none

def clientParts (headers : HeaderMap) : Parts := ⟨"GET".toList, "http://o/x".toList, headers⟩

def keptAlive : HeaderMap := [(connection, ascii "keep-alive".toList)]

theorem stays_at_proxy_iff_keptAlive :
    ¬StaysAtProxy keptAlive (toOriginForm orderedHttp sampleUri (clientParts keptAlive)).headers
        (addedHost orderedHttp sampleUri (clientParts keptAlive)) [] ∧
      ∀ sent ∈ (forwardHandshake orderedHttp standardBase64 countingAuthenticator
          (clientParts keptAlive) [] (.negotiate 7) [chunkedChallenge [], sizedChallenge]).legs,
        ∃ auth, upstreamRequest orderedHttp (clientParts keptAlive) [] auth = .ok sent.request ∧
          StaysAtProxy keptAlive sent.request.parts.headers (legHeaders orderedHttp auth)
            framingHeaders := by
  obtain ⟨hdirect, hlegs⟩ := stays_at_proxy_iff orderedHttp sampleUri (clientParts keptAlive)
    standardBase64 countingAuthenticator [] (.negotiate 7) [chunkedChallenge [], sizedChallenge]
  refine ⟨fun h => ?_, fun sent hmem => ?_⟩
  · exact (hdirect.mp h (connection, _) List.mem_cons_self).1 rfl
  · obtain ⟨auth, hrequest, hduty⟩ := hlegs sent hmem
    refine ⟨auth, hrequest, hduty.mpr ?_⟩
    intro header hheader _
    rw [List.mem_singleton.mp hheader]
    decide

/-- Credentials for the proxy reach the origin in direct mode, and a field that
`Connection` names reaches the upstream. -/
theorem meant_for_proxy_sent_on :
    ¬StaysAtProxy [(proxyAuthorization, ascii "Basic c2VjcmV0".toList)]
        (toOriginForm orderedHttp sampleUri
          (clientParts [(proxyAuthorization, ascii "Basic c2VjcmV0".toList)])).headers
        (addedHost orderedHttp sampleUri
          (clientParts [(proxyAuthorization, ascii "Basic c2VjcmV0".toList)])) [] ∧
      ∃ request, upstreamRequest orderedHttp
          (clientParts [(connection, ascii "x-hop".toList), ("x-hop".toList, [49])]) [] none =
            .ok request ∧
        ¬StaysAtProxy [(connection, ascii "x-hop".toList), ("x-hop".toList, [49])]
          request.parts.headers (legHeaders orderedHttp none) framingHeaders := by
  refine ⟨fun h => ?_, _, rfl, fun h => ?_⟩
  · exact absurd (h.stays proxyAuthorization rfl) (by decide)
  · exact absurd (h.stays "x-hop".toList (by decide)) (by decide)

end Zicade.Proxy
