import Zicade.Win.Discovery

/-! # The host decides

A URL is written from a scheme, an optional userinfo, a host, an optional port and whatever
follows. The static proxy reads the host back from it, so its decision is about the host.
-/

namespace Zicade.Win

open Zicade.Foundation Zicade.Routing

/-! ## Written URLs -/

/-- The text has none of the characters. -/
def Without (excluded : Text) (t : Text) : Prop := ∀ c ∈ t, c ∉ excluded

instance (excluded t : Text) : Decidable (Without excluded t) :=
  inferInstanceAs (Decidable (∀ c ∈ t, c ∉ excluded))

/-- The host of a written URL: a registered name or an IPv4 literal, or an IPv6 literal that
is written in brackets. -/
inductive UrlHost
  | name (text : Text) (plain : Without ['/', '?', '#', '@', ':', '[', ']'] text)
  | bracketed (address : Text) (inside : Without ['/', '?', '#', '@', ']'] address)

namespace UrlHost

def bare : UrlHost → Text
  | name text _ => text
  | bracketed address _ => address

def text : UrlHost → Text
  | name text _ => text
  | bracketed address _ => '[' :: address ++ [']']

end UrlHost

/-- The components of a URL. Only the delimiters that would end a component early are kept out
of it: a userinfo may have any `':'` and `'@'`, and what follows the authority is free. -/
structure WrittenUrl where
  scheme : Text
  userinfo : Option Text
  host : UrlHost
  port : Option Text
  tail : Text
  scheme_plain : Without [':'] scheme
  userinfo_plain : ∀ info ∈ userinfo, Without ['/', '?', '#'] info
  port_plain : ∀ digits ∈ port, Without ['/', '?', '#', '@'] digits
  tail_delimited : ∀ c ∈ tail.head?, endsAuthority c

namespace WrittenUrl

def userinfoText (url : WrittenUrl) : Text :=
  match url.userinfo with
  | some info => info ++ ['@']
  | none => []

def portText (url : WrittenUrl) : Text :=
  match url.port with
  | some digits => ':' :: digits
  | none => []

def hostPort (url : WrittenUrl) : Text := url.host.text ++ url.portText

def authority (url : WrittenUrl) : Text := url.userinfoText ++ url.hostPort

def text (url : WrittenUrl) : Text :=
  url.scheme ++ ("://".toList ++ (url.authority ++ url.tail))

end WrittenUrl

/-! ## Reading the host back -/

theorem without_nil (excluded : Text) : Without excluded [] :=
  fun _ hc => absurd hc List.not_mem_nil

theorem Without.append {excluded s t : Text} (hs : Without excluded s) (ht : Without excluded t) :
    Without excluded (s ++ t) := fun c hc => (List.mem_append.mp hc).elim (hs c) (ht c)

theorem Without.cons {excluded t : Text} {a : Char} (ha : a ∉ excluded)
    (ht : Without excluded t) : Without excluded (a :: t) := by
  intro c hc
  rcases List.mem_cons.mp hc with rfl | hc
  · exact ha
  · exact ht c hc

theorem Without.mono {excluded fewer t : Text} (ht : Without excluded t)
    (hfewer : fewer ⊆ excluded) : Without fewer t := fun c hc hmem => ht c hc (hfewer hmem)

theorem Without.not_mem {excluded t : Text} (ht : Without excluded t) {c : Char}
    (hc : c ∈ excluded) : c ∉ t := fun hmem => ht c hmem hc

namespace WrittenUrl

variable (url : WrittenUrl)

/-- Neither the host nor the port has a delimiter that would cut the authority, or an `'@'`. -/
theorem hostPort_plain : Without ['/', '?', '#', '@'] url.hostPort := by
  have hhost : Without ['/', '?', '#', '@'] url.host.text := by
    cases url.host with
    | name text plain => exact plain.mono (by decide)
    | bracketed address inside =>
        have haddress : Without ['/', '?', '#', '@'] address := inside.mono (by decide)
        exact (haddress.append (by decide)).cons (by decide)
  have hport : Without ['/', '?', '#', '@'] url.portText := by
    unfold portText
    split
    next digits hdigits => exact (url.port_plain digits hdigits).cons (by decide)
    next => exact without_nil _
  exact hhost.append hport

theorem authority_plain : ∀ c ∈ url.authority, endsAuthority c = false := by
  have huserinfo : Without ['/', '?', '#'] url.userinfoText := by
    unfold userinfoText
    split
    next info hinfo => exact (url.userinfo_plain info hinfo).append (by decide)
    next => exact without_nil _
  have hauthority := huserinfo.append (url.hostPort_plain.mono (by decide))
  intro c hc
  simpa [endsAuthority, and_assoc] using hauthority c hc

theorem rsplitOnce_authority :
    ((rsplitOnce '@' url.authority).map Prod.snd).getD url.authority = url.hostPort := by
  have hat : '@' ∉ url.hostPort := url.hostPort_plain.not_mem (by decide)
  unfold authority userinfoText
  split
  next info _ =>
    rw [List.append_assoc, List.singleton_append, rsplitOnce_append_cons info hat]
    rfl
  next =>
    rw [List.nil_append, rsplitOnce, if_neg hat]
    rfl

/-- A host that is not in brackets ends where the port begins. -/
theorem hostOf_name {name : Text} (hname : Without ['/', '?', '#', '@', ':', '[', ']'] name) :
    ((splitOnce ':' (name ++ url.portText)).map Prod.fst).getD (name ++ url.portText) = name := by
  have hcolon : ':' ∉ name := hname.not_mem (by decide)
  unfold portText
  split
  next digits _ =>
    rw [splitOnce_append digits hcolon]
    rfl
  next =>
    rw [List.append_nil, splitOnce_of_not_mem hcolon]
    rfl

theorem name_ne_bracket {name : Text} (hname : Without ['/', '?', '#', '@', ':', '[', ']'] name)
    (rest : Text) : name ++ url.portText ≠ '[' :: rest := by
  cases name with
  | nil =>
      unfold portText
      split <;> simp
  | cons c name =>
      rintro heq
      obtain ⟨rfl, -⟩ := List.cons.inj heq
      exact hname.not_mem (by decide) List.mem_cons_self

/-- The components are stripped one by one; what is left is the host. -/
theorem hostOf_text : hostOf url.text = toAsciiLowercase url.host.bare := by
  have hscheme : afterFirst "://".toList url.text = some (url.authority ++ url.tail) :=
    afterFirst_append (url.scheme_plain.not_mem (by decide)) ['/', '/'] _
  rw [hostOf, hscheme, Option.getD_some,
    headD_splitOnP_append url.authority_plain url.tail_delimited, rsplitOnce_authority]
  unfold hostPort
  cases url.host with
  | name name plain =>
      dsimp only [UrlHost.text, UrlHost.bare]
      split
      next stripped heq => exact absurd heq (url.name_ne_bracket plain stripped)
      next => rw [url.hostOf_name plain]
  | bracketed address inside =>
      have hclosed : ('[' :: address ++ [']']) ++ url.portText =
          '[' :: (address ++ ']' :: url.portText) := by simp
      dsimp only [UrlHost.text, UrlHost.bare]
      rw [hclosed]
      split
      next stripped heq =>
        obtain ⟨-, rfl⟩ := List.cons.inj heq
        rw [splitOnce_append _ (inside.not_mem (by decide)), Option.map_some, Option.getD_some]
      next hname => exact absurd rfl (hname _)

end WrittenUrl

example : hostOf "https://a:b@[2001:DB8::1]:8443/x@y?z://w".toList = "2001:db8::1".toList := by
  decide +kernel

/-! ## The decision -/

/-- The `<local>` entry as a pattern matches a host without a dot only. -/
theorem hostBypassed_iff (host : Text) (entries : List Text) :
    hostBypassed host entries = true ↔
      (∃ entry ∈ entries, Glob '*' entry host) ∨ (localEntry ∈ entries ∧ '.' ∉ host) := by
  rw [hostBypassed, List.any_eq_true]
  constructor
  · rintro ⟨entry, hentry, hmatch⟩
    split at hmatch
    next hlocal => exact .inr ⟨hlocal ▸ hentry, of_decide_eq_true hmatch⟩
    next => exact .inl ⟨entry, hentry, (wildcardMatch_iff entry host).mp hmatch⟩
  · rintro (⟨entry, hentry, hglob⟩ | ⟨hlocal, hdotless⟩)
    · refine ⟨entry, hentry, ?_⟩
      split
      next heq =>
        subst heq
        rw [← (glob_self_iff (by decide)).mp hglob]
        decide
      next => exact (wildcardMatch_iff entry host).mpr hglob
    · exact ⟨localEntry, hlocal, by rw [if_pos rfl]; exact decide_eq_true hdotless⟩

namespace StaticResolver

theorem resolve_eq_direct_iff (resolver : StaticResolver) (url : Text) :
    resolver.resolve url = .direct ↔
      resolver.proxy = .direct ∨ hostBypassed (hostOf url) resolver.bypass = true := by
  rw [resolve]
  split
  next hbypassed => exact iff_of_true rfl (.inr hbypassed)
  next hproxied => exact ⟨.inl, fun h => h.resolve_right hproxied⟩

end StaticResolver

/-- The host read back from a written URL is the host it was written from, in lower case. So
the resolver gives URLs with one host, up to ASCII case, one result; and that is `Direct`
exactly when the proxy parses to `Direct`, the host matches an entry, or `<local>` is listed
and the host has no dot. -/
theorem staticResolver_decides_by_host :
    (∀ url : WrittenUrl, hostOf url.text = toAsciiLowercase url.host.bare) ∧
      ∀ (proxy : Text) (bypass : Option Text) (url : WrittenUrl),
        (∀ other : WrittenUrl, eqIgnoreAsciiCase url.host.bare other.host.bare = true →
          (StaticResolver.new proxy bypass).resolve url.text =
            (StaticResolver.new proxy bypass).resolve other.text) ∧
        ((StaticResolver.new proxy bypass).resolve url.text = .direct ↔
          PacResult.parse proxy = .direct ∨
            (∃ entry ∈ (StaticResolver.new proxy bypass).bypass,
              Glob '*' entry (toAsciiLowercase url.host.bare)) ∨
            (localEntry ∈ (StaticResolver.new proxy bypass).bypass ∧ '.' ∉ url.host.bare)) := by
  refine ⟨WrittenUrl.hostOf_text, fun proxy bypass url => ⟨fun other hsame => ?_, ?_⟩⟩
  · rw [StaticResolver.resolve, StaticResolver.resolve, url.hostOf_text, other.hostOf_text,
      eq_of_beq hsame]
  · have hdot : '.' ∈ toAsciiLowercase url.host.bare ↔ '.' ∈ url.host.bare :=
      mem_toAsciiLowercase (by decide) url.host.bare
    rw [StaticResolver.resolve_eq_direct_iff, url.hostOf_text, hostBypassed_iff, hdot]
    rfl

end Zicade.Win
