import Zicade.App.PacRouter
import Zicade.Foundation.Ledger
import Zicade.Foundation.Parties
import Zicade.Foundation.Runs
import Zicade.Win.Discovery

/-! # The WinHTTP backend and what it owns

WinHTTP hands out sessions, which are closed when their backend is dropped, and strings,
which the caller of each function has to read and to free. Windows' replies are events; what
is used after its release, or released twice, is a fault.
-/

namespace Zicade.Win.WinHttp

open Zicade.Foundation Zicade.Routing Zicade.App

/-! ## Choosing how to discover -/

/-- The per-user proxy settings, copied out. -/
structure IeProxyConfig where
  autoConfigUrl : Option Text := none
  autoDetect : Bool := false
  proxy : Option Text := none
  bypass : Option Text := none
  deriving DecidableEq, Repr

inductive Strategy
  | configUrl (url : Text)
  | wpad
  | staticProxy (proxy : Text) (bypass : Option Text)
  | direct
  deriving DecidableEq, Repr

/-- A text that is there and not blank. -/
def filled (text : Option Text) : Option Text := text.filter fun text => !(trim text).isEmpty

/-- A setup script, then auto-detection, then a manual proxy. -/
def selectStrategy (cfg : IeProxyConfig) : Strategy :=
  match filled cfg.autoConfigUrl with
  | some url => .configUrl url
  | none =>
      if cfg.autoDetect then .wpad
      else
        match filled cfg.proxy with
        | some proxy => .staticProxy proxy cfg.bypass
        | none => .direct

/-! ## What Windows gives out -/

/-- A string in memory of WinHTTP, with its text if that is valid UTF-16. -/
structure PWStr where
  id : Nat
  text : Option Text
  deriving DecidableEq, Repr

inductive Fault
  | freedTwice (id : Nat)
  | readFreed (id : Nat)
  | closedTwice (handle : Nat)
  | usedClosed (handle : Nat)
  deriving DecidableEq, Repr

/-- How `WinHttpGetProxyForUrl` is asked: by a script address, or by auto-detection over DHCP
and DNS. -/
inductive AutoProxy
  | configUrl (url : Text)
  | autoDetect
  deriving DecidableEq, Repr

structure ProxyCall where
  handle : Nat
  url : Text
  mode : AutoProxy
  deriving DecidableEq, Repr

/-- `strings` is the memory of `GlobalAlloc` that WinHTTP passed to this process. -/
structure Windows where
  strings : Ledger := {}
  sessions : Ledger := {}
  calls : List ProxyCall := []
  faults : List Fault := []
  deriving DecidableEq, Repr

namespace Windows

/-- WinHTTP fills in a string member, or leaves it null. -/
def globalAlloc (os : Windows) : Option (Option Text) → Option PWStr × Windows
  | none => (none, os)
  | some text => (some ⟨os.strings.acquired, text⟩, { os with strings := os.strings.acquire })

def globalFree (os : Windows) (s : PWStr) : Windows :=
  { os with
    strings := os.strings.release s.id
    faults := if os.strings.isOut s.id then os.faults else os.faults ++ [.freedTwice s.id] }

/-- `PWSTR::to_string`. -/
def readString (os : Windows) (s : PWStr) : Option Text × Windows :=
  (s.text,
    if os.strings.isOut s.id then os else { os with faults := os.faults ++ [.readFreed s.id] })

def winHttpOpen (os : Windows) : Nat × Windows :=
  (os.sessions.acquired, { os with sessions := os.sessions.acquire })

def closeHandle (os : Windows) (handle : Nat) : Windows :=
  { os with
    sessions := os.sessions.release handle
    faults := if os.sessions.isOut handle then os.faults
      else os.faults ++ [.closedTwice handle] }

/-- `WinHttpGetProxyForUrl`, as far as the session is concerned. -/
def ask (os : Windows) (call : ProxyCall) : Windows :=
  { os with
    calls := os.calls ++ [call]
    faults := if os.sessions.isOut call.handle then os.faults
      else os.faults ++ [.usedClosed call.handle] }

end Windows

/-! ## Strings -/

/-- Copy a string out, then free it. -/
def takePwstr (os : Windows) : Option PWStr → Option Text × Windows
  | none => (none, os)
  | some s =>
      let (value, os) := os.readString s
      (value.filter fun text => !text.isEmpty, os.globalFree s)

def freePwstr (os : Windows) : Option PWStr → Windows
  | none => os
  | some s => os.globalFree s

/-- `{:08x}` of an error code. -/
def hex8 (code : UInt32) : String :=
  let digits := Nat.toDigits 16 code.toNat
  String.ofList (List.replicate (8 - digits.length) '0' ++ digits)

/-- `HRESULT_FILE_NOT_FOUND`. -/
def hresultFileNotFound : UInt32 := 0x80070002

/-- What `WinHttpGetIEProxyConfigForCurrentUser` fills in. -/
structure IeReply where
  autoConfigUrl : Option (Option Text)
  autoDetect : Bool
  proxy : Option (Option Text)
  bypass : Option (Option Text)
  deriving DecidableEq, Repr

/-- A failing call has allocated nothing, and no settings are empty settings. -/
def readIeProxyConfig (os : Windows) :
    Except UInt32 IeReply → Except RoutingError IeProxyConfig × Windows
  | .error code =>
      if code = hresultFileNotFound then (.ok {}, os)
      else (.error (.backend
        s!"WinHttpGetIEProxyConfigForCurrentUser failed: 0x{hex8 code}"), os)
  | .ok reply =>
      let (rawUrl, os) := os.globalAlloc reply.autoConfigUrl
      let (rawProxy, os) := os.globalAlloc reply.proxy
      let (rawBypass, os) := os.globalAlloc reply.bypass
      let (autoConfigUrl, os) := takePwstr os rawUrl
      let (proxy, os) := takePwstr os rawProxy
      let (bypass, os) := takePwstr os rawBypass
      (.ok { autoConfigUrl, autoDetect := reply.autoDetect, proxy, bypass }, os)

/-! ## Sessions -/

structure Session where
  handle : Nat
  configUrl : Option Text
  deriving DecidableEq, Repr

/-- `WINHTTP_PROXY_INFO`, as a successful call fills it in. -/
structure ProxyReply where
  proxy : Option (Option Text)
  bypass : Option (Option Text)
  deriving DecidableEq, Repr

namespace Session

def openSession (os : Windows) (configUrl : Option Text) (opened : Bool) :
    Except RoutingError Session × Windows :=
  if opened then
    let (handle, os) := os.winHttpOpen
    (.ok { handle, configUrl }, os)
  else (.error (.backend "WinHttpOpen returned a null session handle"), os)

/-- A script address and auto-detection exclude each other. -/
def mode (session : Session) : AutoProxy :=
  match session.configUrl with
  | some url => .configUrl url
  | none => .autoDetect

/-- `read_proxy_info`: no list means DIRECT. -/
def readProxyInfo (os : Windows) : Option PWStr → PacResult × Windows
  | none => (.direct, os)
  | some s =>
      let (raw, os) := os.readString s
      (.parse (raw.getD []), os)

def resolve (session : Session) (os : Windows) (url : Text) (reply : Except UInt32 ProxyReply) :
    Except RoutingError PacResult × Windows :=
  let os := os.ask { handle := session.handle, url, mode := session.mode }
  match reply with
  | .error code => (.error (.backend s!"WinHttpGetProxyForUrl failed: 0x{hex8 code}"), os)
  | .ok info =>
      let (proxy, os) := os.globalAlloc info.proxy
      let (bypass, os) := os.globalAlloc info.bypass
      let (result, os) := readProxyInfo os proxy
      (.ok result, freePwstr (freePwstr os proxy) bypass)

end Session

/-! ## Backends -/

inductive Backend
  | session (session : Session)
  | static (resolver : StaticResolver)
  | direct
  deriving DecidableEq, Repr

namespace Backend

def ofSession (opened : Except RoutingError Session × Windows) :
    Except RoutingError Backend × Windows :=
  (opened.1.map session, opened.2)

/-- `from_system`: the user's settings decide once, when the backend is opened. -/
def fromSystem (os : Windows) (reply : Except UInt32 IeReply) (opened : Bool) :
    Except RoutingError Backend × Windows :=
  match readIeProxyConfig os reply with
  | (.error err, os) => (.error err, os)
  | (.ok cfg, os) =>
      match selectStrategy cfg with
      | .configUrl url => ofSession (Session.openSession os (some url) opened)
      | .wpad => ofSession (Session.openSession os none opened)
      | .staticProxy proxy bypass => (.ok (.static (.new proxy bypass)), os)
      | .direct => (.ok .direct, os)

def resolve (backend : Backend) (os : Windows) (url : Text) (reply : Except UInt32 ProxyReply) :
    Except RoutingError PacResult × Windows :=
  match backend with
  | .session own => own.resolve os url reply
  | .static resolver => (.ok (resolver.resolve url), os)
  | .direct => (.ok .direct, os)

/-- `Drop`: a session closes its handle. -/
def drop (backend : Backend) (os : Windows) : Windows :=
  match backend with
  | .session own => os.closeHandle own.handle
  | .static _ => os
  | .direct => os

/-- The handle that a backend holds. -/
def handle : Backend → Option Nat
  | .session own => some own.handle
  | .static _ => none
  | .direct => none

end Backend

/-! ## Any number of backends -/

/-- Every backend there was, or what is left of it once it was dropped. -/
structure Backends where
  os : Windows := {}
  slots : List (Option Backend) := []

inductive BackendEvent
  | openWpad (opened : Bool)
  | openConfigUrl (url : Text) (opened : Bool)
  | openSystem (reply : Except UInt32 IeReply) (opened : Bool)
  | resolve (i : Nat) (url : Text) (reply : Except UInt32 ProxyReply)
  | drop (i : Nat)

namespace Backends

def add (backends : Backends) (opened : Except RoutingError Backend × Windows) : Backends :=
  match opened with
  | (.ok backend, os) => { os, slots := backends.slots ++ [some backend] }
  | (.error _, os) => { backends with os }

def step (backends : Backends) : BackendEvent → Option Backends
  | .openWpad opened =>
      some (backends.add (Backend.ofSession (Session.openSession backends.os none opened)))
  | .openConfigUrl url opened =>
      some (backends.add
        (Backend.ofSession (Session.openSession backends.os (some url) opened)))
  | .openSystem reply opened => some (backends.add (Backend.fromSystem backends.os reply opened))
  | .resolve i url reply =>
      match backends.slots[i]? with
      | some (some backend) =>
          some { backends with os := (backend.resolve backends.os url reply).2 }
      | _ => none
  | .drop i =>
      match backends.slots[i]? with
      | some (some backend) =>
          some { os := backend.drop backends.os, slots := backends.slots.set i none }
      | _ => none

/-- The handles of the live backends. -/
def handles (slots : List (Option Backend)) : List Nat :=
  slots.filterMap fun slot => slot.bind Backend.handle

end Backends

/-! ## What each call leaves behind -/

/-- The strings `strings` are held, the sessions `sessions` are open, and nothing went wrong. -/
structure Windows.Holds (os : Windows) (strings : List PWStr) (sessions : List Nat)
    (calls : List ProxyCall) : Prop where
  strings : os.strings.Owes (strings.map PWStr.id)
  sessions : os.sessions.Owes sessions
  calls : os.calls = calls
  faults : os.faults = []

namespace Windows.Holds

variable {os : Windows} {strings : List PWStr} {sessions : List Nat} {calls : List ProxyCall}
  {s : PWStr}

theorem globalAlloc (hholds : os.Holds strings sessions calls) (text : Option (Option Text)) :
    (os.globalAlloc text).2.Holds (strings ++ (os.globalAlloc text).1.toList) sessions calls := by
  cases text with
  | none => simpa [Windows.globalAlloc] using hholds
  | some text =>
      refine ⟨?_, hholds.sessions, hholds.calls, hholds.faults⟩
      simpa [Windows.globalAlloc] using hholds.strings.acquire

/-- A held string can be read. -/
theorem readString (hholds : os.Holds strings sessions calls) (hmem : s ∈ strings) :
    os.readString s = (s.text, os) := by
  rw [Windows.readString, hholds.strings.isOut (List.mem_map_of_mem hmem)]
  rfl

theorem globalFree (hholds : os.Holds (s :: strings) sessions calls) :
    (os.globalFree s).Holds strings sessions calls := by
  refine ⟨hholds.strings.release, hholds.sessions, hholds.calls, ?_⟩
  rw [Windows.globalFree, hholds.strings.isOut List.mem_cons_self]
  exact hholds.faults

/-- Copying a string out frees it. -/
theorem takePwstr {raw : Option PWStr} (hholds : os.Holds (raw.toList ++ strings) sessions calls) :
    (takePwstr os raw).2.Holds strings sessions calls := by
  cases raw with
  | none => exact hholds
  | some s =>
      rw [WinHttp.takePwstr, hholds.readString List.mem_cons_self]
      exact hholds.globalFree

theorem freePwstr {raw : Option PWStr} (hholds : os.Holds (raw.toList ++ strings) sessions calls) :
    (freePwstr os raw).Holds strings sessions calls := by
  cases raw with
  | none => exact hholds
  | some s => exact hholds.globalFree

/-- Reading the settings leaves no string behind, whether it succeeds or not. -/
theorem readIeProxyConfig (hholds : os.Holds [] sessions calls)
    (reply : Except UInt32 IeReply) :
    (readIeProxyConfig os reply).2.Holds [] sessions calls := by
  cases reply with
  | error code =>
      rw [WinHttp.readIeProxyConfig]
      split
      next => exact hholds
      next => exact hholds
  | ok reply =>
      have hurl := hholds.globalAlloc reply.autoConfigUrl
      have hproxy := hurl.globalAlloc reply.proxy
      have hbypass := hproxy.globalAlloc reply.bypass
      rw [List.nil_append, List.append_assoc] at hbypass
      apply takePwstr
      rw [List.append_nil]
      exact hbypass.takePwstr.takePwstr

theorem winHttpOpen (hholds : os.Holds strings sessions calls) :
    os.winHttpOpen.2.Holds strings (sessions ++ [os.winHttpOpen.1]) calls :=
  ⟨hholds.strings, hholds.sessions.acquire, hholds.calls, hholds.faults⟩

theorem closeHandle {handle : Nat} (hholds : os.Holds strings (handle :: sessions) calls) :
    (os.closeHandle handle).Holds strings sessions calls := by
  refine ⟨hholds.strings, hholds.sessions.release, hholds.calls, ?_⟩
  rw [Windows.closeHandle, hholds.sessions.isOut List.mem_cons_self]
  exact hholds.faults

theorem ask {call : ProxyCall} (hholds : os.Holds strings sessions calls)
    (hopen : call.handle ∈ sessions) :
    (os.ask call).Holds strings sessions (calls ++ [call]) := by
  refine ⟨hholds.strings, hholds.sessions, by rw [← hholds.calls]; rfl, ?_⟩
  rw [Windows.ask, hholds.sessions.isOut hopen]
  exact hholds.faults

/-- The strings of a reply are read before they are freed, and then gone. -/
theorem resolve {session : Session} (hholds : os.Holds [] sessions calls)
    (hopen : session.handle ∈ sessions) (url : Text) (reply : Except UInt32 ProxyReply) :
    (session.resolve os url reply).2.Holds [] sessions
      (calls ++ [{ handle := session.handle, url, mode := session.mode }]) := by
  let call : ProxyCall := { handle := session.handle, url, mode := session.mode }
  have hasked : (os.ask call).Holds [] sessions (calls ++ [call]) := hholds.ask hopen
  cases reply with
  | error code => exact hasked
  | ok info =>
      have hproxy := hasked.globalAlloc info.proxy
      have hbypass := hproxy.globalAlloc info.bypass
      rw [List.nil_append] at hbypass
      rw [Session.resolve]
      dsimp only
      generalize (os.ask _).globalAlloc info.proxy = proxy at hbypass ⊢
      generalize proxy.2.globalAlloc info.bypass = bypass at hbypass ⊢
      have hread : (Session.readProxyInfo bypass.2 proxy.1).2 = bypass.2 := by
        cases hraw : proxy.1 with
        | none => rfl
        | some s =>
            rw [Session.readProxyInfo, hbypass.readString (by simp [hraw])]
      rw [hread]
      apply freePwstr
      rw [List.append_nil]
      exact hbypass.freePwstr

end Windows.Holds

/-! ## Every run -/

/-- What holds of the process: no string is held, the sessions that are open are those of the
live backends, and each session has asked in its own mode. -/
structure Backends.Lawful (backends : Backends) : Prop where
  holds : backends.os.Holds [] (Backends.handles backends.slots) backends.os.calls
  asked : ∀ call ∈ backends.os.calls, call.handle < backends.os.sessions.acquired
  modes : ∀ session : Session, some (.session session) ∈ backends.slots →
    ∀ call ∈ backends.os.calls, call.handle = session.handle → call.mode = session.mode

namespace Backends

theorem lawful_new : ({} : Backends).Lawful where
  holds := ⟨Ledger.owes_new, Ledger.owes_new, rfl, rfl⟩
  asked call hmem := by cases hmem
  modes session hmem := by cases hmem

variable {backends next : Backends}

theorem handles_append (front back : List (Option Backend)) :
    handles (front ++ back) = handles front ++ handles back :=
  List.filterMap_append

theorem mem_handles {session : Session} {slots : List (Option Backend)}
    (hmem : some (.session session) ∈ slots) : session.handle ∈ handles slots :=
  List.mem_filterMap.mpr ⟨_, hmem, rfl⟩

theorem Lawful.handle_lt (hlawful : backends.Lawful) {session : Session}
    (hmem : some (.session session) ∈ backends.slots) :
    session.handle < backends.os.sessions.acquired := by
  have hout := hlawful.holds.sessions.isOut (mem_handles hmem)
  simp only [Ledger.isOut, Bool.and_eq_true, decide_eq_true_eq] at hout
  exact hout.1

/-- Calls that touch no session change nothing about the backends. -/
theorem Lawful.with_os (hlawful : backends.Lawful) {os : Windows}
    (hholds : os.Holds [] (handles backends.slots) backends.os.calls)
    (hsessions : os.sessions = backends.os.sessions) :
    ({ backends with os } : Backends).Lawful := by
  have hcalls := hholds.calls
  refine ⟨?_, ?_, ?_⟩
  · rw [← hcalls] at hholds
    exact hholds
  · intro call hmem
    rw [hcalls] at hmem
    rw [hsessions]
    exact hlawful.asked call hmem
  · intro session hslot call hmem
    rw [hcalls] at hmem
    exact hlawful.modes session hslot call hmem

/-- A backend without a session joins the others. -/
theorem Lawful.add_slot (hlawful : backends.Lawful) {backend : Backend}
    (hnone : backend.handle = none) :
    ({ backends with slots := backends.slots ++ [some backend] } : Backends).Lawful := by
  refine ⟨?_, hlawful.asked, ?_⟩
  · have hholds := hlawful.holds
    simpa [handles, hnone] using hholds
  · intro session hslot
    rcases List.mem_append.mp hslot with hslot | hslot
    · exact hlawful.modes session hslot
    · rw [List.mem_singleton, Option.some.injEq] at hslot
      rw [← hslot] at hnone
      cases hnone

/-- A session that is opened has a handle of its own, on which nothing was asked. -/
theorem Lawful.add_session (hlawful : backends.Lawful) (configUrl : Option Text) (opened : Bool) :
    (backends.add (Backend.ofSession
      (Session.openSession backends.os configUrl opened))).Lawful := by
  cases opened with
  | false => exact hlawful
  | true =>
      refine ⟨?_, ?_, ?_⟩
      · have hopen := hlawful.holds.winHttpOpen
        rw [← show handles [some (.session ⟨backends.os.winHttpOpen.1, configUrl⟩)] =
          [backends.os.winHttpOpen.1] from rfl, ← handles_append] at hopen
        exact hopen
      · intro call hmem
        exact Nat.lt_succ_of_lt (hlawful.asked call hmem)
      · intro session hslot call hmem hhandle
        rcases List.mem_append.mp hslot with hslot | hslot
        · exact hlawful.modes session hslot call hmem hhandle
        · -- the new handle is past every handle that was asked on
          obtain rfl := Backend.session.inj (Option.some.inj (List.mem_singleton.mp hslot))
          exact absurd hhandle (Nat.ne_of_lt (hlawful.asked call hmem))

theorem takePwstr_sessions (os : Windows) (raw : Option PWStr) :
    (takePwstr os raw).2.sessions = os.sessions := by
  cases raw with
  | none => rfl
  | some s =>
      simp only [takePwstr, Windows.readString, Windows.globalFree]
      split <;> rfl

theorem globalAlloc_sessions (os : Windows) (text : Option (Option Text)) :
    (os.globalAlloc text).2.sessions = os.sessions := by
  cases text <;> rfl

theorem readIeProxyConfig_sessions (os : Windows) (reply : Except UInt32 IeReply) :
    (readIeProxyConfig os reply).2.sessions = os.sessions := by
  cases reply with
  | error code =>
      rw [readIeProxyConfig]
      split <;> rfl
  | ok reply => simp only [readIeProxyConfig, takePwstr_sessions, globalAlloc_sessions]

/-- The user's settings are read first, and a session is opened only if they call for one. -/
theorem Lawful.add_system (hlawful : backends.Lawful) (reply : Except UInt32 IeReply)
    (opened : Bool) : (backends.add (Backend.fromSystem backends.os reply opened)).Lawful := by
  have hread := hlawful.with_os (hlawful.holds.readIeProxyConfig reply)
    (readIeProxyConfig_sessions backends.os reply)
  rw [Backend.fromSystem]
  split
  next err os heq =>
    rw [heq] at hread
    exact hread
  next cfg os heq =>
    rw [heq] at hread
    split
    next url _ => exact hread.add_session (some url) opened
    next => exact hread.add_session none opened
    next => exact hread.add_slot rfl
    next => exact hread.add_slot rfl

theorem resolve_sessions (session : Session) (os : Windows) (url : Text)
    (reply : Except UInt32 ProxyReply) :
    (session.resolve os url reply).2.sessions = os.sessions := by
  have hread (os : Windows) (raw : Option PWStr) :
      (Session.readProxyInfo os raw).2.sessions = os.sessions := by
    cases raw with
    | none => rfl
    | some s =>
        simp only [Session.readProxyInfo, Windows.readString]
        split <;> rfl
  have hfree (os : Windows) (raw : Option PWStr) : (freePwstr os raw).sessions = os.sessions := by
    cases raw <;> rfl
  cases reply with
  | error code => rfl
  | ok info =>
      simp only [Session.resolve, hfree, hread, globalAlloc_sessions]
      rfl

/-- What two entries of a list are both filtered to, without duplicates, makes them one. -/
theorem eq_of_nodup_filterMap {α β : Type*} {f : α → Option β} {l : List α}
    (hnodup : (l.filterMap f).Nodup) {x y : α} (hx : x ∈ l) (hy : y ∈ l) {image : β}
    (hfx : f x = some image) (hfy : f y = some image) : x = y := by
  induction l with
  | nil => cases hx
  | cons first rest ih =>
      have hrest : ∀ z ∈ rest, f z = some image → image ∈ rest.filterMap f :=
        fun z hz hfz => List.mem_filterMap.mpr ⟨z, hz, hfz⟩
      rcases List.mem_cons.mp hx with rfl | hxrest
      · rcases List.mem_cons.mp hy with rfl | hyrest
        · rfl
        · rw [List.filterMap_cons_some hfx] at hnodup
          exact absurd (hrest y hyrest hfy) (List.nodup_cons.mp hnodup).1
      · rcases List.mem_cons.mp hy with rfl | hyrest
        · rw [List.filterMap_cons_some hfy] at hnodup
          exact absurd (hrest x hxrest hfx) (List.nodup_cons.mp hnodup).1
        · apply ih _ hxrest hyrest
          cases hfirst : f first with
          | none => rwa [List.filterMap_cons_none hfirst] at hnodup
          | some other =>
              rw [List.filterMap_cons_some hfirst] at hnodup
              exact (List.nodup_cons.mp hnodup).2

/-- No two live backends share a session. -/
theorem Lawful.session_unique (hlawful : backends.Lawful) {first second : Session}
    (hfirst : some (.session first) ∈ backends.slots)
    (hsecond : some (.session second) ∈ backends.slots) (hhandle : first.handle = second.handle) :
    first = second := by
  have hnodup := (List.nodup_append.mp hlawful.holds.sessions.nodup).2.1
  have hsame := eq_of_nodup_filterMap hnodup hfirst hsecond rfl (congrArg some hhandle.symm)
  exact Backend.session.inj (Option.some.inj hsame)

theorem Lawful.resolve (hlawful : backends.Lawful) {backend : Backend}
    (hmem : some backend ∈ backends.slots) (url : Text) (reply : Except UInt32 ProxyReply) :
    ({ backends with os := (backend.resolve backends.os url reply).2 } : Backends).Lawful := by
  cases backend with
  | static resolver => exact hlawful
  | direct => exact hlawful
  | session session =>
      have hholds := hlawful.holds.resolve (mem_handles hmem) url reply
      have hcalls := hholds.calls
      have hsame := resolve_sessions session backends.os url reply
      have hasked := hlawful.handle_lt hmem
      refine ⟨?_, ?_, ?_⟩
      · rw [← hcalls] at hholds
        exact hholds
      · intro call hcall
        rw [Backend.resolve, hcalls] at hcall
        rw [Backend.resolve, hsame]
        rcases List.mem_append.mp hcall with hcall | hcall
        · exact hlawful.asked call hcall
        · rw [List.mem_singleton.mp hcall]
          exact hasked
      · intro other hslot call hcall hhandle
        rw [Backend.resolve, hcalls] at hcall
        rcases List.mem_append.mp hcall with hcall | hcall
        · exact hlawful.modes other hslot call hcall hhandle
        · -- two live sessions with one handle are the same
          rw [List.mem_singleton.mp hcall] at hhandle ⊢
          rw [hlawful.session_unique hmem hslot hhandle]

theorem Lawful.drop (hlawful : backends.Lawful) {i : Nat} {backend : Backend}
    (hslot : backends.slots[i]? = some (some backend)) :
    ({ os := backend.drop backends.os, slots := backends.slots.set i none } : Backends).Lawful := by
  obtain ⟨front, back, hslots, -, hset⟩ := exists_split hslot
  have hmem : ∀ {session : Session}, some (.session session) ∈ backends.slots.set i none →
      some (.session session) ∈ backends.slots := by
    intro session hmem
    rcases List.mem_or_eq_of_mem_set hmem with hmem | hnone
    · exact hmem
    · cases hnone
  have hhandles : (handles backends.slots).Perm
      (backend.handle.toList ++ handles (backends.slots.set i none)) := by
    rw [hset none, hslots]
    cases backend with
    | session own => simp [handles, Backend.handle]
    | static resolver => simp [handles, Backend.handle, List.filterMap_cons]
    | direct => simp [handles, Backend.handle, List.filterMap_cons]
  have hholds := hlawful.holds
  have hsessions := hholds.sessions.perm hhandles.symm
  cases backend with
  | session own =>
      refine ⟨?_, hlawful.asked, fun session hslot => hlawful.modes session (hmem hslot)⟩
      exact Windows.Holds.closeHandle ⟨hholds.strings, hsessions, rfl, hholds.faults⟩
  | static resolver =>
      exact ⟨⟨hholds.strings, hsessions, rfl, hholds.faults⟩, hlawful.asked,
        fun session hslot => hlawful.modes session (hmem hslot)⟩
  | direct =>
      exact ⟨⟨hholds.strings, hsessions, rfl, hholds.faults⟩, hlawful.asked,
        fun session hslot => hlawful.modes session (hmem hslot)⟩

theorem lawful_step {event : BackendEvent} (hlawful : backends.Lawful)
    (hstep : backends.step event = some next) : next.Lawful := by
  cases event with
  | openWpad opened => exact Option.some.inj hstep ▸ hlawful.add_session none opened
  | openConfigUrl url opened => exact Option.some.inj hstep ▸ hlawful.add_session (some url) opened
  | openSystem reply opened => exact Option.some.inj hstep ▸ hlawful.add_system reply opened
  | resolve i url reply =>
      simp only [step] at hstep
      split at hstep
      next backend hslot =>
        exact Option.some.inj hstep ▸ hlawful.resolve (List.mem_of_getElem? hslot) url reply
      next => cases hstep
  | drop i =>
      simp only [step] at hstep
      split at hstep
      next backend hslot => exact Option.some.inj hstep ▸ hlawful.drop hslot
      next => cases hstep

/-- However many backends are opened, asked and dropped, and whatever Windows replies: nothing
is used or released after its release, every string WinHTTP allocated has been freed, once, the
sessions that are not closed are those of the live backends, one each, and each was asked in
its own mode only. -/
theorem backends_release {events : List BackendEvent} {backends : Backends}
    (hrun : run step {} events = some backends) :
    backends.os.faults = [] ∧
      backends.os.strings.released.Perm (List.range backends.os.strings.acquired) ∧
      (backends.os.sessions.released ++ handles backends.slots).Perm
        (List.range backends.os.sessions.acquired) ∧
      ∀ session : Session, some (.session session) ∈ backends.slots →
        ∀ call ∈ backends.os.calls, call.handle = session.handle → call.mode = session.mode := by
  have hlawful := run_invariant Lawful (fun _ _ _ hlawful hstep => lawful_step hlawful hstep)
    lawful_new hrun
  exact ⟨hlawful.holds.faults, hlawful.holds.strings.released_perm, hlawful.holds.sessions,
    hlawful.modes⟩

/-- Two backends from the settings, a script and a manual proxy, which needs no session, and one
that detects its script; the two sessions are asked, and the first is closed. -/
def sampleRun : List BackendEvent :=
  [.openSystem (.ok ⟨some (some "http://wp/p.pac".toList), true, none, none⟩) true,
    .openSystem (.ok ⟨none, false, some (some "p:8080".toList), some (some [])⟩) true,
    .openWpad true,
    .resolve 0 "http://o/".toList (.ok ⟨some (some "PROXY q:1".toList), none⟩),
    .resolve 2 "http://o/".toList (.ok ⟨some (some "DIRECT".toList), none⟩), .drop 0]

theorem backends_release_sampleRun : ∃ backends, run step {} sampleRun = some backends ∧
    (handles backends.slots = [1] ∧ backends.os.calls.map ProxyCall.handle = [0, 1]) ∧
    backends.os.faults = [] ∧
      backends.os.strings.released.Perm (List.range backends.os.strings.acquired) ∧
      (backends.os.sessions.released ++ handles backends.slots).Perm
        (List.range backends.os.sessions.acquired) ∧
      ∀ session : Session, some (.session session) ∈ backends.slots →
        ∀ call ∈ backends.os.calls, call.handle = session.handle → call.mode = session.mode := by
  have hasked : (run step {} sampleRun).map
      (fun backends => (handles backends.slots, backends.os.calls.map ProxyCall.handle)) =
        some ([1], [0, 1]) := by decide +kernel
  obtain ⟨backends, hrun, hview⟩ := Option.map_eq_some_iff.mp hasked
  exact ⟨backends, hrun, Prod.mk.inj hview, backends_release hrun⟩

end Backends

end Zicade.Win.WinHttp
