import Zicade.Auth.Base64
import Zicade.Upstream.Connect
import Zicade.Upstream.DrainLimits
import Zicade.Upstream.Framing

/-! # What grants a tunnel

A handshake on the wire reads its stream as heads, each with the body that is drained
after it. The second word of a head's first line, read as a number, is all that grants
the tunnel.
-/

namespace Zicade.Upstream

open Zicade.Foundation Zicade.Auth Zicade.Net

/-! ## Status lines -/

/-- The text of a head up to its first line end. -/
def firstLine (head : Bytes) : Text := (splitCrlf (fromUtf8Lossy head)).headD []

/-- The second word of a line is a decimal number, maybe with a plus sign and leading
zeros, and that number is the status. -/
def ReadsAs (status : Nat) (line : Text) : Prop :=
  ∃ digits, digits ≠ [] ∧ digitsValue 10 digits = some status ∧
    ((splitWhitespace line)[1]? = some digits ∨ (splitWhitespace line)[1]? = some ('+' :: digits))

theorem digitsValue_of_fromStrRadix {bound n : Nat} {t : Text}
    (hread : fromStrRadix 10 bound t = some n) :
    ∃ digits, digits ≠ [] ∧ digitsValue 10 digits = some n ∧ (t = digits ∨ t = '+' :: digits) := by
  unfold fromStrRadix at hread
  split at hread
  next => cases hread
  next => cases hread
  next digits hne =>
    refine ⟨digits, ?_, (Option.filter_eq_some_iff.mp hread).1, .inr rfl⟩
    rintro rfl
    exact hne rfl
  next hne _ _ => exact ⟨t, hne, (Option.filter_eq_some_iff.mp hread).1, .inl rfl⟩

theorem fromStrRadix_plus {bound n : Nat} {digits : Text} (hne : digits ≠ [])
    (hdigits : digitsValue 10 digits = some n) (hn : n < bound) :
    fromStrRadix 10 bound ('+' :: digits) = some n := by
  unfold fromStrRadix
  split
  next h => cases h
  next h => exact absurd (List.cons.inj h).2 hne
  next rest _ h =>
    rw [← (List.cons.inj h).2, hdigits, Option.filter_some]
    simp [hn]
  next hplus => exact absurd rfl (hplus digits)

/-- A line without a number for its second word reads as no status at all. -/
theorem parseStatus_eq_iff {status : Nat} (hpos : 0 < status) (hlt : status < 65536)
    (line : Text) : parseStatus line = status ↔ ReadsAs status line := by
  rw [parseStatus, ReadsAs]
  cases hword : (splitWhitespace line)[1]? with
  | none =>
      simp only [Option.bind_none, Option.getD_none]
      constructor
      · rintro rfl
        exact absurd hpos (Nat.lt_irrefl 0)
      · rintro ⟨digits, -, -, h | h⟩
        · cases h
        · cases h
  | some word =>
      simp only [Option.bind_some, Option.some.injEq]
      constructor
      · intro hstatus
        cases hread : fromStrRadix 10 65536 word with
        | none =>
            rw [hread] at hstatus
            exact absurd hpos (hstatus ▸ Nat.lt_irrefl 0)
        | some n =>
            rw [hread, Option.getD_some] at hstatus
            exact hstatus ▸ digitsValue_of_fromStrRadix hread
      · rintro ⟨digits, hne, hdigits, rfl | rfl⟩
        · rw [fromStrRadix_of_digitsValue _ hne hdigits, if_pos hlt, Option.getD_some]
        · rw [fromStrRadix_plus hne hdigits hlt, Option.getD_some]

/-! ## Heads on the wire -/

/-- A read that ends took the text up to its first terminator. -/
theorem readUntil_ok {terminator : Bytes} {tooLong err : IoError} {rounds : Nat}
    {buf value : Bytes} {socket after : Socket}
    (hbuf : ∀ before, before <+: buf → ¬terminator <:+ before)
    (hok : readUntil terminator (fun _ => Wire.fail err) tooLong rounds buf socket =
      (.ok value, after)) :
    ∃ more, Consumed socket after more ∧ value = buf ++ more ∧ EndsFirst terminator value := by
  induction rounds generalizing buf socket with
  | zero => cases (Prod.mk.inj hok).1
  | succ rounds ih =>
      rw [readUntil] at hok
      cases hincoming : socket.incoming with
      | nil =>
          have hread := read_takes_nil 1 hincoming
          by_cases hclosed : socket.ending = .closed
          · rw [if_pos hclosed] at hread
            rw [Wire.bind_of_ok _ hread.eq_ok] at hok
            cases (Prod.mk.inj hok).1
          · rw [if_neg hclosed] at hread
            have hnone := (hread.bind_none.gives value).mp (congrArg Prod.fst hok)
            cases hnone
      | cons b rest =>
          obtain ⟨middle, hread, hconsumed⟩ := read_one hincoming
          rw [Wire.bind_of_ok _ hread] at hok
          dsimp only at hok
          by_cases hsuffix : terminator.isSuffixOf (buf ++ [b]) = true
          · rw [if_pos hsuffix] at hok
            obtain ⟨hvalue, rfl⟩ := Prod.mk.inj hok
            obtain rfl := Except.ok.inj hvalue
            refine ⟨[b], hconsumed, rfl, List.isSuffixOf_iff_suffix.mp hsuffix, ?_⟩
            intro before hprefix hends
            rcases List.prefix_concat_iff.mp hprefix with heq | hshorter
            · exact heq
            · exact absurd hends (hbuf before hshorter)
          · rw [if_neg hsuffix] at hok
            by_cases hlimit : maxHeadBytes < (buf ++ [b]).length
            · rw [if_pos hlimit] at hok
              cases (Prod.mk.inj hok).1
            · rw [if_neg hlimit] at hok
              have hnext : ∀ before, before <+: buf ++ [b] → ¬terminator <:+ before := by
                intro before hprefix hends
                rcases List.prefix_concat_iff.mp hprefix with rfl | hshorter
                · exact hsuffix (List.isSuffixOf_iff_suffix.mpr hends)
                · exact hbuf before hshorter hends
              obtain ⟨more, hmore, rfl, hfirst⟩ := ih hnext hok
              exact ⟨b :: more, hconsumed.trans hmore, by simp, hfirst⟩

/-- Bytes that a head ends with, at the first blank line. -/
def IsHead (head : Bytes) : Prop := EndsFirst (crlf ++ crlf) head

theorem readHead_ok {socket after : Socket} {head : Head}
    (hok : readHead socket = (.ok head, after)) :
    ∃ bytes, Consumed socket after bytes ∧ IsHead bytes ∧ head = parseHead bytes := by
  rw [readHead, Wire.bind_apply] at hok
  split at hok
  next value middle hread =>
    have hempty : ∀ before : Bytes, before <+: [] → ¬(crlf ++ crlf) <:+ before := by
      intro before hprefix hends
      rw [List.prefix_nil.mp hprefix, List.suffix_nil] at hends
      cases hends
    obtain ⟨bytes, hconsumed, hvalue, hends⟩ := readUntil_ok hempty hread
    obtain ⟨hhead, rfl⟩ := Prod.mk.inj hok
    exact ⟨value, by rwa [hvalue], hends, (Except.ok.inj hhead).symm⟩
  next => cases (Prod.mk.inj hok).1

theorem ok_of_mapErr {ε ζ α : Type} {f : ε → ζ} {operation : Wire ε α} {socket after : Socket}
    {value : α} (hok : Wire.mapErr f operation socket = (.ok value, after)) :
    operation socket = (.ok value, after) := by
  unfold Wire.mapErr at hok
  split at hok
  next result after' heq =>
    obtain ⟨hvalue, rfl⟩ := Prod.mk.inj hok
    rw [heq, Except.ok.inj hvalue]
  next => cases (Prod.mk.inj hok).1

/-- A leg that is answered took the head that answers it, and nothing after it. -/
theorem sendLeg_ok {dst : Text} {auth : Option Text} {firstReused : Bool}
    {socket after : Socket} {head : Head}
    (hok : sendLeg dst auth firstReused socket = (.ok head, after)) :
    ∃ bytes, socket.incoming = bytes ++ after.incoming ∧ IsHead bytes ∧ head = parseHead bytes := by
  have hwritten : ∀ socket : Socket,
      (writeAll (asBytes (connectRequest dst auth)) socket).2.incoming = socket.incoming := by
    intro socket
    rcases writeAll_cases (asBytes (connectRequest dst auth)) socket with h | ⟨-, halt, h⟩
    · rw [h]
      rfl
    · rw [h]
      rfl
  have hpeeked : ∀ {socket awaited : Socket}, awaitResponse socket = (.ok (), awaited) →
      awaited.incoming = socket.incoming := by
    intro socket awaited hawait
    have hpeek : (peek socket).2.incoming = socket.incoming := by
      rcases peek_cases socket with ⟨-, hpeek⟩ | ⟨-, hsame⟩
      · rw [hpeek]
      · rw [hsame]
    rw [awaitResponse, Wire.bind_apply] at hawait
    split at hawait
    next count peeked heq =>
      rw [heq] at hpeek
      split at hawait
      next => cases (Prod.mk.inj hawait).1
      next => exact (Prod.mk.inj hawait).2 ▸ hpeek
    next => cases (Prod.mk.inj hawait).1
  rw [sendLeg, Wire.bind_apply] at hok
  split at hok
  next written hwrite =>
    have hincoming := hwritten socket
    rw [ok_of_mapErr hwrite] at hincoming
    cases firstReused with
    | false =>
        obtain ⟨bytes, hconsumed, hhead, heq⟩ := readHead_ok (ok_of_mapErr hok)
        exact ⟨bytes, hincoming ▸ hconsumed.incoming, hhead, heq⟩
    | true =>
        rw [if_pos rfl, Wire.bind_apply] at hok
        split at hok
        next awaited hawait =>
          obtain ⟨bytes, hconsumed, hhead, heq⟩ := readHead_ok (ok_of_mapErr hok)
          refine ⟨bytes, ?_, hhead, heq⟩
          rw [← hincoming, ← hpeeked (ok_of_mapErr hawait)]
          exact hconsumed.incoming
        next => cases (Prod.mk.inj hok).1
  next => cases (Prod.mk.inj hok).1

/-! ## The heads of a handshake -/

/-- A head on the stream, and the bytes drained after it. -/
structure Heard where
  head : Bytes
  body : Bytes
  deriving DecidableEq, Repr

def Heard.bytes (heard : Heard) : Bytes := heard.head ++ heard.body

/-- The exchange read these heads off the stream, each with its body: every one but the last
reads as 407, and there is a tunnel exactly if the last reads as 200. Then the tunnel starts
where the last head ends. -/
structure HearsFrom (exchange : Exchange Socket) (stream : Bytes) (answers : List Heard) :
    Prop where
  heads : exchange.legs.filterMap Leg.head = answers.map fun heard => parseHead heard.head
  taken : answers.flatMap Heard.bytes <+: stream
  isHead : ∀ heard ∈ answers, IsHead heard.head
  challenged : ∀ heard ∈ answers.dropLast, ReadsAs 407 (firstLine heard.head)
  granted : exchange.result = .ok () ↔
    ∃ heard, answers.getLast? = some heard ∧ ReadsAs 200 (firstLine heard.head)
  tunnel : exchange.result = .ok () →
    stream = answers.flatMap Heard.bytes ++ exchange.stream.incoming

section

variable {σ : Type*} {stream : Bytes} {exchange : Exchange Socket}

theorem parseHead_fst_eq_iff {status : Nat} (hpos : 0 < status) (hlt : status < 65536)
    {bytes : Bytes} {headers : Headers} {found : Nat} (hhead : (found, headers) = parseHead bytes) :
    found = status ↔ ReadsAs status (firstLine bytes) := by
  have hfound : found = parseStatus (firstLine bytes) := congrArg Prod.fst hhead
  rw [hfound]
  exact parseStatus_eq_iff hpos hlt _

theorem hearsFrom_unanswered {legs : List Leg} {halt : Halt Failure} {after : Socket}
    (hlegs : legs.filterMap Leg.head = []) :
    HearsFrom ⟨legs, .error halt, after⟩ stream [] where
  heads := hlegs
  taken := List.nil_prefix
  isHead := by simp
  challenged := by simp
  granted := by simp
  tunnel := by simp

/-- A last leg that was answered. -/
theorem hearsFrom_last {bytes body : Bytes} {auth : Option Text} {status : Nat}
    {headers : Headers} {result : Except (Halt Failure) Unit} {after : Socket}
    (hstream : bytes ++ body <+: stream) (hends : IsHead bytes)
    (hhead : (status, headers) = parseHead bytes)
    (hresult : result = .ok () ↔ status = 200)
    (htunnel : result = .ok () → stream = bytes ++ body ++ after.incoming) :
    HearsFrom ⟨[⟨auth, some (status, headers)⟩], result, after⟩ stream [⟨bytes, body⟩] where
  heads := by simp [hhead]
  taken := by simpa [Heard.bytes] using hstream
  isHead := by simpa using hends
  challenged := by simp
  granted := by
    rw [hresult, parseHead_fst_eq_iff (by decide) (by decide) hhead]
    simp
  tunnel := by simpa [Heard.bytes] using htunnel

/-- A leg that a 407 answered, before what the rest of the exchange hears. -/
theorem HearsFrom.cons {answers : List Heard} {bytes body rest : Bytes} {auth : Option Text}
    {headers : Headers} (hrest : HearsFrom exchange rest answers)
    (hstream : stream = bytes ++ (body ++ rest)) (hends : IsHead bytes)
    (hhead : (407, headers) = parseHead bytes) :
    HearsFrom (exchange.cons ⟨auth, some (407, headers)⟩) stream (⟨bytes, body⟩ :: answers) where
  heads := by
    rw [Exchange.cons, List.filterMap_cons, List.map_cons, ← hrest.heads, ← hhead]
  taken := by
    obtain ⟨tail, htail⟩ := hrest.taken
    exact ⟨tail, by simp [hstream, ← htail, Heard.bytes]⟩
  isHead := by
    intro heard hmem
    rcases List.mem_cons.mp hmem with rfl | hmem
    · exact hends
    · exact hrest.isHead heard hmem
  challenged := by
    intro heard hmem
    have hfirst : ReadsAs 407 (firstLine bytes) :=
      (parseHead_fst_eq_iff (by decide) (by decide) hhead).mp rfl
    cases answers with
    | nil => simp at hmem
    | cons next answers =>
        rw [List.dropLast_cons_of_ne_nil (List.cons_ne_nil _ _)] at hmem
        rcases List.mem_cons.mp hmem with rfl | hmem
        · exact hfirst
        · exact hrest.challenged heard hmem
  granted := by
    have hfirst : ¬ReadsAs 200 (firstLine bytes) := by
      rw [← parseHead_fst_eq_iff (by decide) (by decide) hhead]
      decide
    rw [Exchange.cons, hrest.granted]
    cases answers with
    | nil => simp [hfirst]
    | cons next answers => rw [List.getLast?_cons_cons]
  tunnel := by
    intro hok
    rw [hstream, hrest.tunnel hok, List.flatMap_cons, Heard.bytes]
    simp [Exchange.cons]

variable (base64 : Base64) (authenticator : Authenticator σ) (reused : Bool) (dst : Text)

theorem handshakeLegs_hears (left leg : Nat) (authState : AuthState σ) (auth : Option Text)
    (socket : Socket) :
    ∃ answers, HearsFrom (handshakeLegs base64 authenticator (wireTransport dst) reused left leg
      authState auth socket) socket.incoming answers := by
  induction left generalizing leg authState auth socket with
  | zero => exact ⟨[], hearsFrom_unanswered rfl⟩
  | succ left ih =>
      cases handshakeRound base64 authenticator (wireTransport dst) reused leg authState auth
        socket with
      | unanswered halt after hsend hround =>
          rw [hround]
          exact ⟨[], hearsFrom_unanswered rfl⟩
      | granted headers after hsend hround =>
          obtain ⟨bytes, hincoming, hends, hhead⟩ := sendLeg_ok hsend
          rw [hround]
          exact ⟨[⟨bytes, []⟩], hearsFrom_last ⟨after.incoming, by simp [hincoming]⟩ hends
            hhead (by simp) fun _ => by simp [hincoming]⟩
      | refused status headers after halt hsend hstatus hfresh hround =>
          obtain ⟨bytes, hincoming, hends, hhead⟩ := sendLeg_ok hsend
          have hdrained := (drainBody_takes headers after).consumed.incoming
          rw [hround]
          have hprefix : bytes ++ (drainSpan headers after).1 <+: socket.incoming :=
            ⟨_, by rw [hincoming, hdrained, List.append_assoc]⟩
          exact ⟨[⟨bytes, (drainSpan headers after).1⟩],
            hearsFrom_last hprefix hends hhead (by simp [hstatus]) (by simp)⟩
      | answered headers after drained value next hsend hdrain hanswer hround =>
          obtain ⟨bytes, hincoming, hends, hhead⟩ := sendLeg_ok hsend
          have hdrained := (drainBody_takes headers after).consumed.incoming
          have hresult : drainBody headers after = (.ok (), drained) := hdrain
          rw [hresult] at hdrained
          obtain ⟨answers, hrest⟩ := ih (leg + 1) next (some value) drained
          rw [hround]
          refine ⟨⟨bytes, (drainSpan headers after).1⟩ :: answers, hrest.cons ?_ hends hhead⟩
          rw [hincoming, hdrained]

end

/-! ## A line that is no status line -/

/-- The head starts with an HTTP/1 status line of three digits, and they are 200. -/
def StatusLine200 (head : Bytes) : Prop :=
  ∃ minor < 10, ∃ stop ∈ [" ", "\r\n"],
    ascii ("HTTP/1.".toList ++ [digitChar minor] ++ " 200".toList ++ stop.toList) <+: head

instance (head : Bytes) : Decidable (StatusLine200 head) := by
  unfold StatusLine200
  infer_instance

def lenientHead : Bytes := ascii "ICY +0200\r\n\r\n".toList

end Zicade.Upstream
